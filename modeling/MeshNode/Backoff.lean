import MeshNode.Decimal.Shortest

/-!
# Trying again

A delivery that fails is tried again after a delay, a limited number of times. The delay grows by a
constant factor from one attempt to the next, up to a greatest delay, and is then shortened by a
random factor between a half and one so that senders do not fall into step. The arithmetic is that
of doubles, in seconds; a factor that makes the delay negative is a mistake that no delay answers.
-/

namespace MeshNode

/-- How often and after which delays a delivery is tried again. Delays are in milliseconds. -/
structure RetryPolicy where
  maxRetries : Nat
  initialDelay : Nat
  maxDelay : Nat
  multiplier : Float

namespace RetryPolicy

/-- Three retries, after one, two and four seconds. -/
def default : RetryPolicy := ⟨3, 1000, 30000, 2⟩

/-- No retries. -/
def none : RetryPolicy := { default with maxRetries := 0 }

/-- Milliseconds as seconds. -/
def seconds (millis : Nat) : Float :=
  Float.ofNat (millis / 1000) + Float.ofNat (millis % 1000 * 1000000) / 1000000000

/-- A power by repeated squaring; `bits` bounds the number of bits of the exponent. -/
def power : (bits : Nat) → (base : Float) → (exponent : Nat) → Float → Float
  | 0, _, _, result => result
  | bits + 1, base, exponent, result =>
    let result := if exponent % 2 = 1 then result * base else result
    if exponent / 2 = 0 then result else power bits (base * base) (exponent / 2) result

/-- The smaller of two numbers, of which one that is no number does not count. -/
def least (x y : Float) : Float :=
  if x.isNaN then y else if y.isNaN then x else if x ≤ y then x else y

/-- The delay after an attempt before it is shortened, in seconds. Attempts count from zero. -/
def cappedDelay (p : RetryPolicy) (attempt : Nat) : Float :=
  least (seconds p.initialDelay * power 31 p.multiplier (min attempt 0x7fffffff) 1)
    (seconds p.maxDelay)

/-- Seconds as nanoseconds, to the nearest, a half to the even neighbour; nothing when negative. -/
def nanos? (x : Float) : Option Nat :=
  match Decimal.Dyadic.ofBits? x.abs.toBits with
  | Option.none => some 0
  | some v =>
    if x < 0 then Option.none
    else if 0 ≤ v.exponent then some (v.mantissa * Nat.pow 2 v.exponent.toNat * 1000000000)
    else
      let unit := Nat.pow 2 (-v.exponent).toNat
      let scaled := v.mantissa * 1000000000
      let whole := scaled / unit
      let rest := 2 * (scaled % unit)
      some (if unit < rest ∨ (rest = unit ∧ whole % 2 = 1) then whole + 1 else whole)

/-- The delay after an attempt in nanoseconds, shortened by a factor; nothing when it would be
negative. -/
def delay? (p : RetryPolicy) (attempt : Nat) (factor : Float) : Option Nat :=
  nanos? (p.cappedDelay attempt * factor)

/-- The smallest factor by which a delay is shortened. -/
def leastFactor : Float := 0.5

variable {ε α : Type}

/-- Tries from the attempt `number` on while retries are left: the outcome and how many attempts
there were in all, or nothing when a delay would be negative. -/
def attempts (p : RetryPolicy) (deliver : Nat → Except ε α) :
    (retries number : Nat) → Option (Except ε α × Nat)
  | retries, number =>
    match deliver number with
    | .ok a => some (.ok a, number + 1)
    | .error e =>
      match retries with
      | 0 => some (.error e, number + 1)
      | retries + 1 =>
        match p.delay? number leastFactor with
        | some _ => attempts p deliver retries (number + 1)
        | Option.none => Option.none

/-- Tries until the delivery succeeds or no retry is left. -/
def run (p : RetryPolicy) (deliver : Nat → Except ε α) : Option (Except ε α × Nat) :=
  p.attempts deliver p.maxRetries 0

end RetryPolicy

end MeshNode
