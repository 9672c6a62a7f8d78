import TraceReplay.Numeral
import TraceReplay.Text.Printable

/-! # Quoted text

Text is quoted with apostrophes, or with quotation marks if it holds an apostrophe and no quotation
mark. The backslash and the mark in use are escaped by a backslash, tab, line feed and carriage
return by a letter, and every other unprintable character by the shortest numeric escape of two,
four or eight hexadecimal digits. Bytes are quoted as text of ASCII characters, the other bytes
being unprintable, and are marked by a letter in front.
-/

namespace TraceReplay.Text

def quoteMark (cs : List Char) : Char :=
  if cs.contains '\'' && !cs.contains '"' then '"' else '\''

def numericEscape (n : Nat) : List Char :=
  if n < 0x100 then '\\' :: 'x' :: Numeral.hex 2 n
  else if n < 0x10000 then '\\' :: 'u' :: Numeral.hex 4 n
  else '\\' :: 'U' :: Numeral.hex 8 n

def quoteChar (mark : Char) (printable : Char → Bool) (c : Char) : List Char :=
  if c = mark || c = '\\' then ['\\', c]
  else if c = '\t' then ['\\', 't']
  else if c = '\n' then ['\\', 'n']
  else if c = '\r' then ['\\', 'r']
  else if printable c then [c]
  else numericEscape c.toNat

def quoteChars (printable : Char → Bool) (cs : List Char) : List Char :=
  let mark := quoteMark cs
  mark :: cs.flatMap (quoteChar mark printable) ++ [mark]

def quote (s : String) : String := String.ofList (quoteChars isPrintable s.toList)

def quoteBytes (bytes : List UInt8) : String :=
  let cs := bytes.map fun b => Char.ofNat b.toNat
  String.ofList ('b' :: quoteChars (fun c => isPrintable c && c.toNat < 0x7f) cs)

end TraceReplay.Text
