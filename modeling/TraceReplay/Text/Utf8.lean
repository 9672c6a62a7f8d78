import TraceReplay.Numeral

/-! # UTF-8

Bytes are decoded one character at a time; overlong forms, surrogates and code points beyond
U+10FFFF are refused at their first impossible byte. A fault names the bytes of the incomplete
character: those that could still start one, and at the end of the data all that are left.
-/

namespace TraceReplay.Text.Utf8

inductive Defect where
  | startByte
  | continuationByte
  | endOfData
  deriving DecidableEq

/-- A defect, the position of the character that has it, and the bytes at fault, the first of
them apart. -/
structure Fault where
  defect : Defect
  position : Nat
  first : UInt8
  more : List UInt8
  deriving DecidableEq

def Defect.message : Defect → String
  | startByte => "invalid start byte"
  | continuationByte => "invalid continuation byte"
  | endOfData => "unexpected end of data"

def Fault.place (f : Fault) : String :=
  if f.more.isEmpty then
    "byte 0x" ++ String.ofList (Numeral.hex 2 f.first.toNat) ++ " in position " ++ f.position.repr
  else
    "bytes in position " ++ f.position.repr ++ "-" ++ (f.position + f.more.length).repr

def Fault.message (f : Fault) : String :=
  "'utf-8' codec can't decode " ++ f.place ++ ": " ++ f.defect.message

def isContinuation (b : UInt8) : Bool := 0x80 ≤ b && b ≤ 0xbf

/-- Whether a second byte may follow the first byte of a longer character. -/
def mayFollow (first second : UInt8) : Bool :=
  isContinuation second &&
    (first != 0xe0 || 0xa0 ≤ second) && (first != 0xed || second < 0xa0) &&
    (first != 0xf0 || 0x90 ≤ second) && (first != 0xf4 || second < 0x90)

def join (start : Nat) (continuation : List UInt8) : Char :=
  Char.ofNat (continuation.foldl (fun acc b => acc * 0x40 + (b.toNat - 0x80)) start)

def decodeFrom (position : Nat) : List UInt8 → Except Fault (List Char)
  | [] => .ok []
  | a :: rest =>
    let fail (defect : Defect) (more : List UInt8) : Except Fault (List Char) :=
      .error ⟨defect, position, a, more⟩
    if a < 0x80 then (Char.ofNat a.toNat :: ·) <$> decodeFrom (position + 1) rest
    else if a < 0xc2 then fail .startByte []
    else if a < 0xe0 then
      match rest with
      | [] => fail .endOfData []
      | b :: rest =>
        if isContinuation b then
          (join (a.toNat - 0xc0) [b] :: ·) <$> decodeFrom (position + 2) rest
        else fail .continuationByte []
    else if a < 0xf0 then
      match rest with
      | [] => fail .endOfData []
      | [b] => if mayFollow a b then fail .endOfData [b] else fail .continuationByte []
      | b :: c :: rest =>
        if !mayFollow a b then fail .continuationByte []
        else if !isContinuation c then fail .continuationByte [b]
        else (join (a.toNat - 0xe0) [b, c] :: ·) <$> decodeFrom (position + 3) rest
    else if a < 0xf5 then
      match rest with
      | [] => fail .endOfData []
      | [b] => if mayFollow a b then fail .endOfData [b] else fail .continuationByte []
      | [b, c] =>
        if !mayFollow a b then fail .continuationByte []
        else if isContinuation c then fail .endOfData [b, c] else fail .continuationByte [b]
      | b :: c :: d :: rest =>
        if !mayFollow a b then fail .continuationByte []
        else if !isContinuation c then fail .continuationByte [b]
        else if !isContinuation d then fail .continuationByte [b, c]
        else (join (a.toNat - 0xf0) [b, c, d] :: ·) <$> decodeFrom (position + 4) rest
    else fail .startByte []

def decode (bytes : List UInt8) : Except Fault String :=
  String.ofList <$> decodeFrom 0 bytes

end TraceReplay.Text.Utf8
