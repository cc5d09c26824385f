/-!
# Arithmetic modulo a prime

`Modular.inverse` finds inverses with the extended Euclidean algorithm.
-/

namespace ChainConformance.Modular

/-- The coefficients of the extended Euclidean algorithm: `r` and `s` are two successive remainders,
`t` and `u` the multiples of the first number that they come from. -/
def euclid (r s : Nat) (t u : Int) : Int :=
  if s = 0 then t else euclid s (r % s) u (t - (r / s : Nat) * u)
termination_by s
decreasing_by exact Nat.mod_lt _ (by omega)

/-- The number whose product with `a` is 1 modulo `m`, if the two have no common divisor. -/
def inverse (m a : Nat) : Nat := (euclid m (a % m) 0 1 % m).toNat

/-- `a` minus `b` modulo `m`. -/
def sub (m a b : Nat) : Nat := (a + (m - b % m)) % m

/-- `a` to the power given by bits, most significant first. -/
def powBits (m a : Nat) (bits : List Bool) : Nat :=
  bits.foldl (fun r b => if b then r * r % m * a % m else r * r % m) (1 % m)

end ChainConformance.Modular
