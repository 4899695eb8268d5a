/-!
Characters, numbers and bytes in texts: blank characters, numbers in decimal and hexadecimal, and
the text that is shown for bytes. The reader of 64-bit numbers takes leading zeros and one plus
sign, and nothing else besides ASCII digits.
-/

namespace SignalPaths.Text

/-- The twenty-five characters of the Unicode property White_Space, of which core's
`Char.isWhitespace` knows four. -/
def isBlank (c : Char) : Bool :=
  let n := c.toNat
  (9 ≤ n && n ≤ 13) || n == 0x20 || n == 0x85 || n == 0xa0 || n == 0x1680 ||
    (0x2000 ≤ n && n ≤ 0x200a) || n == 0x2028 || n == 0x2029 || n == 0x202f || n == 0x205f ||
    n == 0x3000

def decimal (n : Nat) : List Char := Nat.toDigits 10 n

def readDigits (cs : List Char) : Option Nat :=
  if cs.isEmpty || !cs.all Char.isDigit then none else some (Nat.ofDigitChars 10 cs 0)

def readUnsigned : List Char → Option Nat
  | '+' :: digits => readDigits digits
  | digits => readDigits digits

def readUInt64 (text : String) : Option UInt64 :=
  match readUnsigned text.toList with
  | some n => if n < UInt64.size then some (UInt64.ofNat n) else none
  | none => none

theorem decimal_ne_nil (n : Nat) : decimal n ≠ [] := by
  simp [decimal]

theorem readDigits_decimal (n : Nat) : readDigits (decimal n) = some n := by
  have digits : ∀ c ∈ Nat.toDigits 10 n, c.isDigit = true :=
    fun _ inside => Nat.isDigit_of_mem_toDigits (by omega) (by omega) inside
  simpa [readDigits, decimal, Nat.ofDigitChars_toDigits] using digits

def hexDigit? (c : Char) : Option Nat :=
  if c.isDigit then some (c.toNat - '0'.toNat)
  else if 'a' ≤ c ∧ c ≤ 'f' then some (c.toNat - 'a'.toNat + 10)
  else if 'A' ≤ c ∧ c ≤ 'F' then some (c.toNat - 'A'.toNat + 10)
  else none

/-- The number that hexadecimal digits spell, most significant first. -/
def readHex (cs : List Char) : Option Nat :=
  cs.foldlM (fun n c => (hexDigit? c).map (16 * n + ·)) 0

/-- The character of a code point; surrogates are none. -/
def charOf? (n : Nat) : Option Char :=
  if h : n.isValidChar then some (Char.ofNatAux n h) else none

/-- The ranges in which the bytes of a character lie that come after its first byte. -/
def continuations (first : UInt8) : List (UInt8 × UInt8) :=
  let any := (0x80, 0xBF)
  if 0xC2 ≤ first ∧ first ≤ 0xDF then [any]
  else if first = 0xE0 then [(0xA0, 0xBF), any]
  else if first = 0xED then [(0x80, 0x9F), any]
  else if 0xE1 ≤ first ∧ first ≤ 0xEF then [any, any]
  else if first = 0xF0 then [(0x90, 0xBF), any, any]
  else if 0xF1 ≤ first ∧ first ≤ 0xF3 then [any, any, any]
  else if first = 0xF4 then [(0x80, 0x8F), any, any]
  else []

/-- The number of bytes that lie in their ranges, up to the first that does not. -/
def fitting : List (UInt8 × UInt8) → List UInt8 → Nat
  | (low, high) :: ranges, byte :: rest =>
    if low ≤ byte ∧ byte ≤ high then fitting ranges rest + 1 else 0
  | _, _ => 0

/-- The characters of a text. Where a character is begun and not ended, the bytes that begin it are
shown as one replacement character. `done` bytes belong to the character before. -/
def shown : (done : Nat) → List UInt8 → List Char
  | _, [] => []
  | done + 1, _ :: rest => shown done rest
  | 0, first :: rest =>
    match (first :: rest.take 3).toByteArray.utf8DecodeChar? 0 with
    | some c => c :: shown (c.utf8Size - 1) rest
    | none => '\uFFFD' :: shown (fitting (continuations first) rest) rest

end SignalPaths.Text
