/-!
# Powers

The `^` of this library is the power that core defines on the natural numbers and the integers.  Mathlib reads `a ^ n` in
their monoids, which is equal but another term, so the two would meet wherever a theorem that uses Mathlib speaks of a
definition that does without.
-/

attribute [default_instance (high), instance (high)] instPowNat
