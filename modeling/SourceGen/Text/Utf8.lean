/-! Bytes read as UTF-8, with a replacement character for each ill-formed stretch. -/

namespace SourceGen.Text

def utf8 (text : String) : List Nat :=
  text.toUTF8.toList.map UInt8.toNat

/-- The number of bytes that follow a lead byte, or none if no character starts with the byte. -/
def tailLength? (lead : Nat) : Option Nat :=
  if lead < 0x80 then some 0
  else if lead < 0xC2 then none
  else if lead < 0xE0 then some 1
  else if lead < 0xF0 then some 2
  else if lead < 0xF5 then some 3
  else none

/-- Whether a byte may follow a lead byte directly. It excludes overlong forms, surrogates and code
points beyond the last one. -/
def followsLead (lead byte : Nat) : Bool :=
  match lead with
  | 0xE0 => 0xA0 ≤ byte && byte < 0xC0
  | 0xED => 0x80 ≤ byte && byte < 0xA0
  | 0xF0 => 0x90 ≤ byte && byte < 0xC0
  | 0xF4 => 0x80 ≤ byte && byte < 0x90
  | _ => 0x80 ≤ byte && byte < 0xC0

/-- The bytes, at most `length`, that continue the character of a lead byte. -/
def continuation (lead length : Nat) (bytes : List Nat) : List Nat :=
  match bytes.take length with
  | [] => []
  | first :: rest =>
    if followsLead lead first then
      first :: rest.takeWhile fun byte => 0x80 ≤ byte && byte < 0xC0
    else []

/-- The bits of the code point that a lead byte carries. -/
def leadBits (lead length : Nat) : Nat :=
  match length with
  | 0 => lead
  | 1 => lead % 0x20
  | 2 => lead % 0x10
  | _ => lead % 0x08

/-- The character of a lead byte and all bytes that continue it. -/
def assemble (lead : Nat) (tail : List Nat) : Char :=
  Char.ofNat (tail.foldl (fun code byte => code * 0x40 + byte % 0x40) (leadBits lead tail.length))

def decodeUtf8 : List Nat → List Char
  | [] => []
  | lead :: rest =>
    match tailLength? lead with
    | none => '\uFFFD' :: decodeUtf8 rest
    | some length =>
      let tail := continuation lead length rest
      (if tail.length = length then assemble lead tail else '\uFFFD') ::
        decodeUtf8 (rest.drop tail.length)
termination_by bytes => bytes.length

end SourceGen.Text
