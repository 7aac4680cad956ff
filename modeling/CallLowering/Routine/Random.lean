import CallLowering.Value.Basic

namespace CallLowering

/-- A generator of random numbers. What it draws depends on its seed, on the bounds of the draws before, and on the
bound; all that is known of it is that it stays below a positive bound, and not below zero. -/
structure Generator where
  number : UInt64 → List Int64 → Int64 → Int64
  inRange : ∀ seed before upper, 0 < upper.toInt →
    0 ≤ (number seed before upper).toInt ∧ (number seed before upper).toInt < upper.toInt

/-- A seeded generator after draws with these bounds. -/
structure RandomSource where
  generator : Generator
  seed : UInt64
  drawn : List Int64

namespace RandomSource

def seeded (generator : Generator) (seed : UInt64) : RandomSource := ⟨generator,seed,[]⟩

/-- An integer from zero up to, and not including, a positive bound. -/
def below (s : RandomSource) (upper : Int64) : Except RoutineError Int64 × RandomSource :=
  if upper.toInt ≤ 0 then
    (.error (.invalidArgument "randomInt"
      ("upper bound must be positive, got "++Int64.text upper)),s)
  else (.ok (s.generator.number s.seed s.drawn upper),{s with drawn := s.drawn++[upper]})

end RandomSource

end CallLowering
