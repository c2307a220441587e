import Pagewright.Text.Printable

/-!
Texts in double quotes, as messages name files, variables and values. What a reader could not see or
would misread is written as an escape.
-/
namespace Pagewright.Text

def hexDigits (n : Nat) : List Char :=
  Nat.toDigits 16 n

/-- What is escaped besides the characters that cannot be shown. -/
structure QuoteStyle where
  /-- Whether an apostrophe gets a backslash. -/
  apostrophe : Bool
deriving DecidableEq, Repr

def QuoteStyle.plain : QuoteStyle := ⟨false⟩

def QuoteStyle.path : QuoteStyle := ⟨true⟩

def quoteChar (style : QuoteStyle) (c : Char) : List Char :=
  if c = '\x00' then ['\\', '0']
  else if c = '\t' then ['\\', 't']
  else if c = '\r' then ['\\', 'r']
  else if c = '\n' then ['\\', 'n']
  else if c = '\\' || c = '"' then ['\\', c]
  else if c = '\'' then (if style.apostrophe then ['\\', c] else [c])
  else if isCombining c || !isPrintable c then
    ['\\', 'u', '\x7b'] ++ hexDigits c.toNat ++ ['\x7d']
  else [c]

def quoteWith (style : QuoteStyle) (s : String) : String :=
  String.ofList ('"' :: s.toList.flatMap (quoteChar style) ++ ['"'])

def quote (s : String) : String :=
  quoteWith .plain s

def quotePath (s : String) : String :=
  quoteWith .path s

end Pagewright.Text
