namespace ScriptIndex.Decimal

inductive Double where
  | finite (negative : Bool) (significand : Nat) (exponent : Int)
  | infinite (negative : Bool)
  | nan

def Double.ofFloat (x : Float) : Double :=
  let bits := x.toBits.toNat
  let negative := bits >>> 63 = 1
  let field := (bits >>> 52) % 2048
  let fraction := bits % (1 <<< 52)
  if field = 2047 then if fraction = 0 then .infinite negative else .nan
  else if field = 0 then .finite negative fraction (-1074)
  else .finite negative ((1 <<< 52) + fraction) ((field : Int) - 1075)

structure Quotient where
  num : Nat
  den : Nat

def Quotient.scaled (n b : Nat) (e : Int) : Quotient :=
  if 0 ≤ e then ⟨n * b.pow e.toNat, 1⟩ else ⟨n, b.pow (-e).toNat⟩

def Quotient.le (p q : Quotient) : Bool :=
  p.num * q.den ≤ q.num * p.den

def Quotient.lt (p q : Quotient) : Bool :=
  p.num * q.den < q.num * p.den

/-- The quotients that round to a double, with the double itself. -/
structure Interval where
  value : Quotient
  low : Quotient
  high : Quotient
  closed : Bool

def Interval.around (m : Nat) (q : Int) : Interval where
  value := .scaled (4 * m) 2 (q - 2)
  low := .scaled (4 * m - (if m = 1 <<< 52 ∧ -1074 < q then 1 else 2)) 2 (q - 2)
  high := .scaled (4 * m + 2) 2 (q - 2)
  closed := m % 2 = 0

def Interval.holds (i : Interval) (p : Quotient) : Bool :=
  if i.closed then i.low.le p && p.le i.high else i.low.lt p && p.lt i.high

def leading (v : Quotient) : Int :=
  let estimate : Int := ((Nat.toDigits 10 v.num).length : Int) - (Nat.toDigits 10 v.den).length
  if (Quotient.scaled 1 10 estimate).le v then estimate else estimate - 1

def Interval.best? (i : Interval) (count : Nat) : Option (Nat × Int) :=
  let e := leading i.value - (count - 1)
  let unit := Quotient.scaled 1 10 e
  let below := i.value.num * unit.den / (i.value.den * unit.num)
  let twice : Quotient := ⟨2 * i.value.num * unit.den, i.value.den * unit.num⟩
  let middle : Quotient := ⟨2 * below + 1, 1⟩
  let lowHit := i.holds (.scaled below 10 e)
  let highHit := i.holds (.scaled (below + 1) 10 e)
  if lowHit && (!highHit || twice.lt middle || (twice.le middle && below % 2 = 0)) then
    some (below, e)
  else if highHit then some (below + 1, e)
  else none

def shortest (m : Nat) (q : Int) : Nat × Int :=
  let i := Interval.around m q
  ((List.range 17).findSome? fun n => i.best? (n + 1)).getD (0, 0)

end ScriptIndex.Decimal
