import Pagewright.Text.Utf8

/-! Percent escapes of request paths. -/
namespace Pagewright.Text

def hexValue (b : UInt8) : Option UInt8 :=
  if 48 ≤ b && b ≤ 57 then some (b - 48)
  else if 65 ≤ b && b ≤ 70 then some (b - 55)
  else if 97 ≤ b && b ≤ 102 then some (b - 87)
  else none

def escapedByte (a b : UInt8) : Option UInt8 :=
  match hexValue a, hexValue b with
  | some x, some y => some (x * 16 + y)
  | _, _ => none

/-- Replaces each percent sign with two hexadecimal digits by its byte; any other one stays. The
bytes read so far are kept last first. -/
def percentDecodeFrom (out : Bytes) : Bytes → Bytes
  | [] => out.reverse
  | 37 :: a :: b :: rest =>
    match escapedByte a b with
    | some x => percentDecodeFrom (x :: out) rest
    | none => percentDecodeFrom (37 :: out) (a :: b :: rest)
  | x :: rest => percentDecodeFrom (x :: out) rest

def percentDecode (bs : Bytes) : Bytes :=
  percentDecodeFrom [] bs

end Pagewright.Text
