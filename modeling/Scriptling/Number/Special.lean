import Scriptling.Number.Float

/-!
# Special functions

The error function, by quotients of polynomials on five ranges, and the gamma function, by a sum of
thirteen terms. The coefficients are those of the usual double precision approximations.
-/

namespace Scriptling.Number

open Float

/-! ## Error function -/

def smallTop : List Float :=
  [0.12837916709551256, -0.3250421072470015, -0.02848174957559851, -0.005770270296489442, -2.3763016656650163e-5]

def smallBottom : List Float :=
  [1.0, 0.39791722395915535, 0.0650222499887673, 0.005081306281875766, 1.3249473800432164e-4, -3.960228278775368e-6]

def nearTop : List Float :=
  [-0.0023621185607526594, 0.41485611868374833, -0.3722078760357013, 0.31834661990116175, -0.11089469428239668,
   0.035478304325618236, -0.002166375594868791]

def nearBottom : List Float :=
  [1.0, 0.10642088040084423, 0.540397917702171, 0.07182865441419627, 0.12617121980876164, 0.01363708391202905,
   0.011984499846799107]

def farTop : List Float :=
  [-0.009864944034847148, -0.6938585727071818, -10.558626225323291, -62.375332450326006, -162.39666946257347,
   -184.60509290671104, -81.2874355063066, -9.814329344169145]

def farBottom : List Float :=
  [1.0, 19.651271667439257, 137.65775414351904, 434.56587747522923, 645.3872717332679, 429.00814002756783,
   108.63500554177944, 6.570249770319282, -0.0604244152148581]

def tailTop : List Float :=
  [-0.0098649429247001, -0.799283237680523, -17.757954917754752, -160.63638485582192, -637.5664433683896,
   -1025.0951316110772, -483.5191916086514]

def tailBottom : List Float :=
  [1.0, 30.33806074348246, 325.7925129965739, 1536.729586084437, 3199.8582195085955, 2553.0504064331644,
   474.52854120695537, -22.44095244658582]

/-- The value of a polynomial: neighbouring coefficients are joined first, and the pairs then weighted with
even powers of `z`, which fixes how the sum is rounded. -/
def polynomial (coefficients : List Float) (z : Float) : Float :=
  let z2 := z * z
  let z4 := z2 * z2
  let z6 := z4 * z2
  let z8 := z4 * z4
  let pair (i : Nat) : Float :=
    match coefficients[2 * i]?, coefficients[2 * i + 1]? with
    | some a, some b => a + z * b
    | some a, none => a
    | _, _ => 0
  let terms := (coefficients.length + 1) / 2
  [(1, z2), (2, z4), (3, z6), (4, z8)].foldl (fun sum (i, w) => if i < terms then sum + w * pair i else sum) (pair 0)

def erfAtOne : Float := 0.8450629115104675

/-- Twice the inverse of the root of pi, less one. -/
def erfSlope : Float := 0.1283791670955126

/-- The upper half of a float's bits, which orders magnitudes coarsely. -/
def upperBits (x : Float) : Nat := x.abs.toBits.toNat / Nat.pow 2 32

/-- A float with the lower half of its bits cleared. -/
def clearLower (x : Float) : Float := ofBits (UInt64.ofNat (x.toBits.toNat / Nat.pow 2 32 * Nat.pow 2 32))

/-- The complementary error function of a large `ax`, times `ax`. -/
def erfTail (ax : Float) (useTail : Bool) : Float :=
  let s := 1 / (ax * ax)
  let q := if useTail then polynomial tailTop s / polynomial tailBottom s
    else polynomial farTop s / polynomial farBottom s
  let z := clearLower ax
  exp (-z * z - 0.5625) * exp ((z - ax) * (z + ax) + q)

def erf (x : Float) : Float :=
  if isNan x then x else
  let ax := x.abs
  let h := upperBits x
  if h < 0x3feb0000 then
    if h < 0x3e300000 then x + erfSlope * x
    else
      let z := x * x
      x + x * (polynomial smallTop z / polynomial smallBottom z)
  else if h < 0x3ff40000 then
    let s := ax - 1
    let q := polynomial nearTop s / polynomial nearBottom s
    if x ≥ 0 then erfAtOne + q else -erfAtOne - q
  else if h ≥ 0x40180000 then copySign 1 x
  else
    let r := erfTail ax (h ≥ 0x4006DB6E)
    if x ≥ 0 then 1 - r / ax else r / ax - 1

def erfc (x : Float) : Float :=
  if isNan x then x else
  let ax := x.abs
  let h := upperBits x
  if h < 0x3feb0000 then
    if h < 0x3c700000 then 1 - x
    else
      let z := x * x
      let y := polynomial smallTop z / polynomial smallBottom z
      if x < 0.25 then 1 - (x + x * y) else 0.5 - (x * y + (x - 0.5))
  else if h < 0x3ff40000 then
    let s := ax - 1
    let q := polynomial nearTop s / polynomial nearBottom s
    if x ≥ 0 then (1 - erfAtOne) - q else 1 + (erfAtOne + q)
  else if h < 0x403c0000 then
    if x < 0 && h ≥ 0x40180000 then 2
    else
      let r := erfTail ax (h ≥ 0x4006DB6D)
      if x > 0 then r / ax else 2 - r / ax
  else if x > 0 then 0 else 2

/-! ## Gamma function -/

def pi : Float := 3.141592653589793

def gammaShift : Float := 6.02468004077673

def gammaTop : List Float :=
  [23531376880.41076, 42919803642.6491, 35711959237.35567, 17921034426.03721, 6039542586.352028, 1439720407.3117216,
   248874557.86205417, 31426415.585400194, 2876370.6289353725, 186056.26539522348, 8071.672002365816,
   210.82427775157936, 2.5066282746310002]

def gammaBottom : List Float :=
  [0.0, 39916800.0, 120543840.0, 150917976.0, 105258076.0, 45995730.0, 13339535.0, 2637558.0, 357423.0, 32670.0,
   1925.0, 66.0, 1.0]

/-- The sum of the approximation: from the highest power down for small arguments, and in the inverse of `x`
for large ones. -/
def gammaSum (x : Float) : Float :=
  if x < 5 then
    gammaTop.reverse.foldl (fun sum c => sum * x + c) 0 / gammaBottom.reverse.foldl (fun sum c => sum * x + c) 0
  else
    gammaTop.foldl (fun sum c => sum / x + c) 0 / gammaBottom.foldl (fun sum c => sum / x + c) 0

/-- The sine of `pi` times a number, reduced before it is multiplied. -/
def sinePi (x : Float) : Float :=
  let y := remainder x.abs 2
  let r :=
    if y < 0.25 then sin (pi * y)
    else if y < 0.75 then cos (pi * (y - 0.5))
    else if y < 1.25 then sin (pi * (1 - y))
    else if y < 1.75 then -cos (pi * (y - 1.5))
    else sin (pi * (y - 2))
  copySign 1 x * r

/-- The outcome of a function that is not defined everywhere. -/
inductive Special where
  | value (x : Float)
  | undefined
  | tooLarge

def Special.ofFloat (x : Float) : Special := if isInfinite x then .tooLarge else .value x

def factorial : Nat → Nat
  | 0 => 1
  | n + 1 => (n + 1) * factorial n

def gamma (x : Float) : Special :=
  if isNan x then .value x
  else if isInfinite x then (if x > 0 then .value x else .undefined)
  else if x == 0 then .undefined
  else if isWhole x && x < 0 then .undefined
  else if isWhole x && x ≤ 23 then .value (floatOfInt (factorial (((truncate? x).getD 1).toNat - 1)))
  else
    let a := x.abs
    if a < 1e-20 then .ofFloat (1 / x)
    else if a > 200 then (if x < 0 then .value (0 / sinePi x) else .tooLarge)
    else
      let half := 5.52468004077673
      let y := a + half
      let z := (if a > half then (y - a) - half else (y - half) - a) * gammaShift / y
      if x < 0 then
        let r := -pi / sinePi a / a * exp y / gammaSum a
        let r := r - z * r
        if a < 140 then .ofFloat (r / pow y (a - 0.5))
        else
          let p := pow y (a / 2 - 0.25)
          .ofFloat (r / p / p)
      else
        let r := gammaSum a / exp y
        let r := r + z * r
        if a < 140 then .ofFloat (r * pow y (a - 0.5))
        else
          let p := pow y (a / 2 - 0.25)
          .ofFloat (r * p * p)

/-- The logarithm of the size of the gamma function. -/
def logGamma (x : Float) : Special :=
  if isNan x then .value x
  else if isInfinite x then .value infinity
  else if isWhole x && x ≤ 2 then (if x ≤ 0 then .undefined else .value 0)
  else
    let a := x.abs
    if a < 1e-20 then .value (-log a)
    else
      let r := log (gammaSum a) - gammaShift
      let r := r + (a - 0.5) * (log (a + gammaShift - 0.5) - 1)
      .ofFloat (if x < 0 then 1.1447298858494002 - log (sinePi a).abs - log a - r else r)

end Scriptling.Number
