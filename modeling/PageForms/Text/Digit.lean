import PageForms.Text.CodeRange

/-!
# Decimal digits

The decimal digits of every script, with their values, and the wider class of characters that
stand for a digit in some typographic form (superscripts, circled digits).
-/

namespace PageForms.Text

/-- The code points of the digit zero, one for each run of ten decimal digits. -/
def zeroDigits : List Nat :=
  [0x30, 0x660, 0x6f0, 0x7c0, 0x966, 0x9e6, 0xa66, 0xae6, 0xb66, 0xbe6, 0xc66, 0xce6, 0xd66,
   0xde6, 0xe50, 0xed0, 0xf20, 0x1040, 0x1090, 0x17e0, 0x1810, 0x1946, 0x19d0, 0x1a80, 0x1a90,
   0x1b50, 0x1bb0, 0x1c40, 0x1c50, 0xa620, 0xa8d0, 0xa900, 0xa9d0, 0xa9f0, 0xaa50, 0xabf0, 0xff10,
   0x104a0, 0x10d30, 0x11066, 0x110f0, 0x11136, 0x111d0, 0x112f0, 0x11450, 0x114d0, 0x11650,
   0x116c0, 0x11730, 0x118e0, 0x11950, 0x11c50, 0x11d50, 0x11da0, 0x16a60, 0x16ac0, 0x16b50,
   0x1d7ce, 0x1d7d8, 0x1d7e2, 0x1d7ec, 0x1d7f6, 0x1e140, 0x1e2f0, 0x1e950, 0x1fbf0]

def digitValue? (c : Char) : Option Nat :=
  let n := c.toNat
  (zeroDigits.find? fun z => z ≤ n && n ≤ z + 9).map (n - ·)

/-- The characters that show a digit but do not count as decimal. -/
def typographicDigits : CodeRanges :=
  [(0xb2, 0xb3), (0xb9, 0xb9), (0x1369, 0x1371), (0x19da, 0x19da), (0x2070, 0x2070),
   (0x2074, 0x2079), (0x2080, 0x2089), (0x2460, 0x2468), (0x2474, 0x247c), (0x2488, 0x2490),
   (0x24ea, 0x24ea), (0x24f5, 0x24fd), (0x24ff, 0x24ff), (0x2776, 0x277e), (0x2780, 0x2788),
   (0x278a, 0x2792), (0x10a40, 0x10a43), (0x10e60, 0x10e68), (0x11052, 0x1105a),
   (0x1f100, 0x1f10a)]

def isDigitLike (c : Char) : Bool :=
  (digitValue? c).isSome || typographicDigits.contains c

def asciiDigit? (c : Char) : Option Nat :=
  if c.isDigit then some (c.toNat - 0x30) else none

def hexValue? (c : Char) : Option Nat :=
  let n := c.toNat
  if 0x30 ≤ n && n ≤ 0x39 then some (n - 0x30)
  else if 0x41 ≤ n && n ≤ 0x46 then some (n - 0x37)
  else if 0x61 ≤ n && n ≤ 0x66 then some (n - 0x57)
  else none

def ofDigits (base : Nat) (digits : List Nat) : Nat :=
  digits.foldl (fun n d => n * base + d) 0

def takeDigits (value? : Char → Option Nat) : List Char → List Nat × List Char
  | [] => ([], [])
  | c :: cs =>
    match value? c with
    | none => ([], c :: cs)
    | some d => (d :: (takeDigits value? cs).1, (takeDigits value? cs).2)

/-- The values of the leading digits of a text, where single underscores may stand between digits,
and what follows them. -/
def takeGroupedDigits (value? : Char → Option Nat) : List Char → List Nat × List Char
  | [] => ([], [])
  | c :: '_' :: cs =>
    match value? c with
    | none => ([], c :: '_' :: cs)
    | some d =>
      match takeGroupedDigits value? cs with
      | ([], _) => ([d], '_' :: cs)
      | (ds, rest) => (d :: ds, rest)
  | c :: cs =>
    match value? c with
    | none => ([], c :: cs)
    | some d => (d :: (takeGroupedDigits value? cs).1, (takeGroupedDigits value? cs).2)

def decimal (n : Nat) : List Char :=
  if n < 10 then [Char.ofNat (0x30 + n)]
  else decimal (n / 10) ++ [Char.ofNat (0x30 + n % 10)]
termination_by n

def decimalInt : Int → String
  | .ofNat n => String.ofList (decimal n)
  | .negSucc n => String.ofList ('-' :: decimal (n + 1))

end PageForms.Text
