import PageForms.Fault
import PageForms.Text.Inspected

/-!
# Decoding UTF-8

Bytes are decoded strictly: a sequence that is too short, too long or stands for no character is
refused, with its place and the reason.
-/

namespace PageForms.Utf8

def isContinuation (b : UInt8) : Bool :=
  0x80 ≤ b && b ≤ 0xbf

/-- The second byte of a character may be `b` behind the first byte `a`. -/
def isSecond (a b : UInt8) : Bool :=
  isContinuation b &&
    (if a == 0xe0 then 0xa0 ≤ b
    else if a == 0xed then b < 0xa0
    else if a == 0xf0 then 0x90 ≤ b
    else if a == 0xf4 then b < 0x90
    else true)

/-- Why bytes are no character. -/
inductive Reason where
  | start
  | continuation
  | truncated
deriving DecidableEq, Repr

def Reason.text : Reason → String
  | .start => "invalid start byte"
  | .continuation => "invalid continuation byte"
  | .truncated => "unexpected end of data"

/-- So many bytes from a place on are no character. -/
def refuse {α : Type} (place : Nat) (first : UInt8) (count : Nat) (reason : Reason) :
    Except Fault α :=
  let what :=
    if count = 1 then
      s!"byte 0x{String.ofList (Text.hexDigits 2 first.toNat)} in position {place}"
    else s!"bytes in position {place}-{place + count - 1}"
  .error (.undecodable s!"'utf-8' codec can't decode {what}: {reason.text}")

def low (b : UInt8) : Nat :=
  b.toNat % 64

def decodeAt (place : Nat) : List UInt8 → Except Fault (List Char)
  | [] => .ok []
  | a :: rest =>
    if a < 0x80 then (Char.ofNat a.toNat :: ·) <$> decodeAt (place + 1) rest
    else if a < 0xc2 then refuse place a 1 .start
    else if a < 0xe0 then
      match rest with
      | [] => refuse place a 1 .truncated
      | b :: rest =>
        if isSecond a b then
          (Char.ofNat (a.toNat % 32 * 64 + low b) :: ·) <$> decodeAt (place + 2) rest
        else refuse place a 1 .continuation
    else if a < 0xf0 then
      match rest with
      | [] => refuse place a 1 .truncated
      | [b] => if isSecond a b then refuse place a 2 .truncated else refuse place a 1 .continuation
      | b :: c :: rest =>
        if !isSecond a b then refuse place a 1 .continuation
        else if !isContinuation c then refuse place a 2 .continuation
        else
          (Char.ofNat ((a.toNat % 16 * 64 + low b) * 64 + low c) :: ·) <$>
            decodeAt (place + 3) rest
    else if a < 0xf5 then
      match rest with
      | [] => refuse place a 1 .truncated
      | [b] => if isSecond a b then refuse place a 2 .truncated else refuse place a 1 .continuation
      | [b, c] =>
        if !isSecond a b then refuse place a 1 .continuation
        else if !isContinuation c then refuse place a 2 .continuation
        else refuse place a 3 .truncated
      | b :: c :: d :: rest =>
        if !isSecond a b then refuse place a 1 .continuation
        else if !isContinuation c then refuse place a 2 .continuation
        else if !isContinuation d then refuse place a 3 .continuation
        else
          (Char.ofNat (((a.toNat % 8 * 64 + low b) * 64 + low c) * 64 + low d) :: ·) <$>
            decodeAt (place + 4) rest
    else refuse place a 1 .start

def decode (bytes : ByteArray) : Except Fault String :=
  String.ofList <$> decodeAt 0 bytes.toList

def unifyLineEnds : List Char → List Char
  | [] => []
  | '\r' :: '\n' :: cs => '\n' :: unifyLineEnds cs
  | '\r' :: cs => '\n' :: unifyLineEnds cs
  | c :: cs => c :: unifyLineEnds cs

def decodeText (bytes : ByteArray) : Except Fault String := do
  return String.ofList (unifyLineEnds (← decode bytes).toList)

end PageForms.Utf8
