import BenchReport.Decimal.Layout
import BenchReport.Event
import BenchReport.Random.Words

/-!
# Items with a Zipf distribution

In a skewed workload a few items are met very often and most hardly ever: the item of
rank `k` has a share proportional to `k ^ -skew`. Such items are drawn by **rejection**.
A candidate is made from one random number so that its distribution is nearly right, and
a second number decides whether it is kept.

A draw has no bound of its own – every candidate may be rejected – so the number of
attempts is a parameter, and running out of them is a result (`none`) that no item can
be mistaken for. A draw that succeeds within some number of attempts gives the same item
within any greater number.

The power function is a parameter as well. What is said about a sampler then names what
it needs of powers, and nothing else is assumed about them.
-/

namespace BenchReport

/-- Why there is no workload. -/
inductive ZipfFault where
  /-- The skew is not a number greater than one. -/
  | invalidSkew (skew : Float)
  /-- There would be no item to draw. -/
  | zeroDistinct
  /-- So many candidates were rejected in a row that the draw was given up. -/
  | exhausted

/-- The wording of a fault. -/
def ZipfFault.message : ZipfFault → String
  | invalidSkew skew => "Invalid skew " ++ Decimal.plain skew ++ ": must be greater than 1"
  | zeroDistinct => "Number of distinct items must be at least 1"
  | exhausted => "No candidate was accepted"

/-- What a workload is generated from. -/
structure ZipfConfig where
  /-- How many items. -/
  size : Nat
  /-- How many different items there are. -/
  distinct : UInt64
  /-- The exponent of the distribution. -/
  skew : Float

namespace Zipf

/-- Whether a skew can be sampled: a finite number greater than one. -/
def isValidSkew (skew : Float) : Bool := skew.isFinite && 1 < skew

/-- The fault of a configuration, if it has one. -/
def fault? (config : ZipfConfig) : Option ZipfFault :=
  if !isValidSkew config.skew then some (.invalidSkew config.skew)
  else if config.distinct = 0 then some .zeroDistinct
  else none

/-! ### The sampler -/

/-- What draws are made with. -/
structure Sampler where
  /-- The power function. -/
  power : Float → Float → Float
  /-- The skew less one. -/
  exponent : Float
  /-- Two to the power of the exponent. -/
  base : Float

/-- The sampler for a skew, with the given power function. -/
def Sampler.ofSkew? (power : Float → Float → Float) (skew : Float) : Except ZipfFault Sampler :=
  if isValidSkew skew then .ok ⟨power, skew - 1, power 2 (skew - 1)⟩
  else .error (.invalidSkew skew)

/-- The greatest rank that is drawn: beyond it doubles leave out whole numbers. -/
def maxRank : Float := 9007199254740992

namespace Sampler

/-- The candidate that a random number gives, if it is in range: the whole part of a
power of what the number leaves to one. -/
def candidate? (s : Sampler) (random : Float) : Option UInt64 :=
  let x := s.power (1 - random) (-1 / s.exponent)
  if 1 ≤ x && x ≤ maxRank then some x.toUInt64 else none

/-- Whether a random number lets a candidate pass. -/
def accepts (s : Sampler) (rank : UInt64) (random : Float) : Bool :=
  let x := rank.toFloat
  let t := s.power (1 + 1 / x) s.exponent
  -- with `b` for the base, the chance to pass is `(t / b) (b - 1) / (x (t - 1))`
  random * x * (t - 1) / (s.base - 1) ≤ t / s.base

/-- The rank that two random numbers give, if it is kept. -/
def attempt? (s : Sampler) (first second : Float) : Option UInt64 :=
  (s.candidate? first).filter fun rank => s.accepts rank second

variable {σ : Type} [Random.WordSource σ]

/-- Draws a rank within a number of attempts, each of which takes two words. -/
def draw (s : Sampler) : Nat → σ → Option (UInt64 × σ)
  | 0, _ => none
  | attempts + 1, state =>
    let (first, state) := Random.nextFloat state
    let (second, state) := Random.nextFloat state
    match s.attempt? first second with
    | some rank => some (rank, state)
    | none => draw s attempts state

/-- Draws ranks, each within a number of attempts, behind those drawn before, the last
of which comes first. -/
def drawBehind (s : Sampler) (attempts : Nat) :
    Nat → List UInt64 → σ → Option (List UInt64 × σ)
  | 0, drawn, state => some (drawn.reverse, state)
  | n + 1, drawn, state =>
    match draw s attempts state with
    | none => none
    | some (rank, state) => drawBehind s attempts n (rank :: drawn) state

/-- Draws a number of ranks, each within a number of attempts. -/
def drawMany (s : Sampler) (attempts n : Nat) (state : σ) : Option (List UInt64 × σ) :=
  drawBehind s attempts n [] state

end Sampler

/-! ### Workloads -/

/-- The item of a rank: ranks count from one, and items beyond the last begin anew. -/
def itemOf (distinct rank : UInt64) : UInt64 := (rank - 1) % distinct

/-- How often a draw is attempted before it is given up. -/
def maxAttempts : Nat := UInt32.size

/-- The items of a workload, and the random words' state after them. -/
def generate {σ : Type} [Random.WordSource σ] (power : Float → Float → Float)
    (attempts : Nat) (config : ZipfConfig) (state : σ) :
    Except ZipfFault (List UInt64 × σ) :=
  match fault? config with
  | some fault => .error fault
  | none =>
    match Sampler.ofSkew? power config.skew with
    | .error fault => .error fault
    | .ok s =>
      match s.drawMany attempts config.size state with
      | none => .error .exhausted
      | some (ranks, state) => .ok (ranks.map (itemOf config.distinct), state)

/-- What is told about a workload before it is drawn. -/
def events (config : ZipfConfig) : List Event :=
  match fault? config with
  | some _ => []
  | none =>
    [.info "generating Zipf data"
      [("size", .count config.size), ("distinct", .count config.distinct.toNat),
        ("skew", .number config.skew)]]

end Zipf

end BenchReport
