import SignalPaths.Text
import SignalPaths.Toml.Item

/-!
Numbers, truth values and dates of TOML, each recognised as a whole word. Integers lie between
-2^63 and 2^63 - 1. A float may not be so large that it would round to positive infinity.
-/

namespace SignalPaths.Toml

/-- Drops the underscores of a run of digits. They may stand between two digits only. -/
def ungroup (isDigit : Char → Bool) : List Char → Option (List Char)
  | [] => none
  | [c] => if isDigit c then some [c] else none
  | c :: '_' :: rest => if isDigit c then (ungroup isDigit rest).map (c :: ·) else none
  | c :: rest => if isDigit c then (ungroup isDigit rest).map (c :: ·) else none

def digitOf (c : Char) : Nat := (Text.hexDigit? c).getD 0

/-- Reads grouped digits of a base up to sixteen. -/
def based (base : Nat) (cs : List Char) : Option Nat :=
  (ungroup (fun c => (Text.hexDigit? c).any (· < base)) cs).map
    (·.foldl (fun n c => base * n + digitOf c) 0)

/-- Reads grouped decimal digits without leading zeros. -/
def wholeNumber (cs : List Char) : Option Nat :=
  if cs.head? = some '0' ∧ cs ≠ ['0'] then none else based 10 cs

def inRange (n : Int) : Option Int :=
  if -(integerBound : Int) ≤ n ∧ n < integerBound then some n else none

def integer? (cs : List Char) : Option Int :=
  match cs with
  | '0' :: 'x' :: rest => (based 16 rest).bind fun n => inRange n
  | '0' :: 'o' :: rest => (based 8 rest).bind fun n => inRange n
  | '0' :: 'b' :: rest => (based 2 rest).bind fun n => inRange n
  | '+' :: rest => (wholeNumber rest).bind fun n => inRange n
  | '-' :: rest => (wholeNumber rest).bind fun n => inRange (-n)
  | _ => (wholeNumber cs).bind fun n => inRange n

def isGrouped (c : Char) : Bool := c.isDigit || c == '_'

def dropSign : List Char → List Char
  | '+' :: rest => rest
  | '-' :: rest => rest
  | cs => cs

/-- Reads what follows the mark of an exponent. -/
def exponent? (cs : List Char) : Option Int :=
  match cs with
  | '-' :: rest => (based 10 rest).map fun n => -(n : Int)
  | cs => (based 10 (dropSign cs)).map fun n => (n : Int)

/-- An unsigned decimal number: its digits without the point, and the power of ten they are taken
with. -/
structure Decimal where
  digits : Nat
  power : Int

def decimal? (cs : List Char) : Option Decimal := do
  let whole := cs.takeWhile isGrouped
  let digits ← wholeNumber whole
  match cs.dropWhile isGrouped with
  | '.' :: rest =>
    let part ← ungroup Char.isDigit (rest.takeWhile isGrouped)
    let digits := part.foldl (fun n c => 10 * n + digitOf c) digits
    match rest.dropWhile isGrouped with
    | [] => return ⟨digits, -part.length⟩
    | mark :: rest =>
      if mark = 'e' ∨ mark = 'E' then return ⟨digits, (← exponent? rest) - part.length⟩ else none
  | mark :: rest => if mark = 'e' ∨ mark = 'E' then return ⟨digits, ← exponent? rest⟩ else none
  | [] => none

/-- The least number that rounds to infinity in double precision. -/
def leastInfinite : Nat := Nat.pow 2 1024 - Nat.pow 2 970

/-- Whether a decimal number rounds to infinity. Numbers far from the bound are told by their
length, so that no large power is computed for them. -/
def Decimal.isInfinite (d : Decimal) : Bool :=
  let magnitude := (Nat.toDigits 10 d.digits).length + d.power
  if d.digits = 0 ∨ magnitude < 300 then false
  else if 320 < magnitude then true
  else if 0 ≤ d.power then leastInfinite ≤ d.digits * Nat.pow 10 d.power.toNat
  else leastInfinite * Nat.pow 10 (-d.power).toNat ≤ d.digits

def isFloat (cs : List Char) : Bool :=
  let magnitude := dropSign cs
  magnitude == ['i', 'n', 'f'] || magnitude == ['n', 'a', 'n'] ||
    match decimal? magnitude with
    | some d => cs.head? == some '-' || !d.isInfinite
    | none => false

/-- Reads two digits as a number between bounds. -/
def twoDigits (a b : Char) (least most : Nat) : Option Nat :=
  if a.isDigit ∧ b.isDigit then
    let n := 10 * digitOf a + digitOf b
    if least ≤ n ∧ n ≤ most then some n else none
  else none

def isLeapYear (year : Nat) : Bool := year % 4 == 0 && (year % 100 != 0 || year % 400 == 0)

def daysIn (year month : Nat) : Nat :=
  match month with
  | 2 => if isLeapYear year then 29 else 28
  | 4 | 6 | 9 | 11 => 30
  | _ => 31

/-- The text after a date, if there is one at the front. -/
def afterDate? : List Char → Option (List Char)
  | y :: e :: a :: r :: '-' :: m :: n :: '-' :: d :: t :: rest => do
    let century ← twoDigits y e 0 99
    let year ← twoDigits a r 0 99
    let month ← twoDigits m n 1 12
    let _ ← twoDigits d t 1 (daysIn (100 * century + year) month)
    return rest
  | _ => none

/-- The text after a time of day, if there is one at the front. -/
def afterTime? : List Char → Option (List Char)
  | h :: o :: ':' :: m :: i :: ':' :: s :: e :: rest => do
    let _ ← twoDigits h o 0 23
    let _ ← twoDigits m i 0 59
    let _ ← twoDigits s e 0 60
    match rest with
    | '.' :: rest =>
      if (rest.takeWhile Char.isDigit).isEmpty then none else return rest.dropWhile Char.isDigit
    | rest => return rest
  | _ => none

def isOffset : List Char → Bool
  | [] | ['Z'] | ['z'] => true
  | [sign, h, o, ':', m, i] =>
    (sign == '+' || sign == '-') && (twoDigits h o 0 23).isSome && (twoDigits m i 0 59).isSome
  | _ => false

/-- A time of day that may have an offset. -/
def isOffsetTime (cs : List Char) : Bool := (afterTime? cs).any isOffset

def isDate (cs : List Char) : Bool := afterDate? cs == some []

def isDateTime (cs : List Char) : Bool :=
  afterTime? cs == some [] ||
    match afterDate? cs with
    | some [] => true
    | some (mark :: time) => (mark == 'T' || mark == 't') && isOffsetTime time
    | none => false

/-- The item that a bare word stands for. -/
def scalar? (word : List Char) : Option Item :=
  if word = ['t', 'r', 'u', 'e'] then some (.boolean true)
  else if word = ['f', 'a', 'l', 's', 'e'] then some (.boolean false)
  else
    match integer? word with
    | some n => some (.integer n)
    | none =>
      if isFloat word then some .float
      else if isDateTime word then some .dateTime
      else none

def isScalarChar (c : Char) : Bool :=
  c.isAlphanum || c == '+' || c == '-' || c == '.' || c == '_' || c == ':'

/-- Reads a bare word. After a date, a blank and a time of day belong to it. -/
def scalar (cs : List Char) : Option (Item × List Char) := do
  let word := cs.takeWhile isScalarChar
  let rest := cs.dropWhile isScalarChar
  let item ← scalar? word
  match isDate word, rest with
  | true, ' ' :: after =>
    let time := after.takeWhile isScalarChar
    if time.isEmpty then return (item, rest)
    else if isOffsetTime time then return (item, after.dropWhile isScalarChar)
    else none
  | _, _ => return (item, rest)

end SignalPaths.Toml
