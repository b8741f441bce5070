/-!
# UTF-8

`encode` writes characters as bytes.  `decode` reads any bytes: a well-formed sequence becomes its
character, and each maximal prefix of a sequence that breaks off becomes one replacement
character U+FFFD, as does each byte that starts no sequence.
-/

namespace BoundSql

namespace Utf8

/-- The bytes of a text. -/
def encode (s : List Char) : List UInt8 :=
  s.flatMap String.utf8EncodeChar

theorem encode_cons (c : Char) (s : List Char) :
    encode (c :: s) = String.utf8EncodeChar c ++ encode s := List.flatMap_cons

theorem encode_append (s t : List Char) : encode (s ++ t) = encode s ++ encode t :=
  List.flatMap_append

/-- What stands for bytes that encode no character. -/
def replacement : Char := Char.ofNat 0xfffd

/-- The ranges in which the bytes after a lead byte lie, one for each byte that must follow;
`none` if no sequence starts with the byte. -/
def followers (lead : UInt8) : Option (List (UInt8 × UInt8)) :=
  if lead < 0x80 then some []
  else if lead < 0xc2 then none
  else if lead < 0xe0 then some [(0x80, 0xbf)]
  else if lead = 0xe0 then some [(0xa0, 0xbf), (0x80, 0xbf)]
  else if lead = 0xed then some [(0x80, 0x9f), (0x80, 0xbf)]
  else if lead < 0xf0 then some [(0x80, 0xbf), (0x80, 0xbf)]
  else if lead = 0xf0 then some [(0x90, 0xbf), (0x80, 0xbf), (0x80, 0xbf)]
  else if lead < 0xf4 then some [(0x80, 0xbf), (0x80, 0xbf), (0x80, 0xbf)]
  else if lead = 0xf4 then some [(0x80, 0x8f), (0x80, 0xbf), (0x80, 0xbf)]
  else none

/-- How many leading bytes lie in their ranges. -/
def matching : List (UInt8 × UInt8) → List UInt8 → Nat
  | (low, high) :: ranges, b :: bytes =>
    if low ≤ b && b ≤ high then matching ranges bytes + 1 else 0
  | _, _ => 0

/-- The bits that a lead byte with `n` followers carries. -/
def payload (lead : UInt8) (n : Nat) : Nat :=
  match n with
  | 0 => lead.toNat
  | 1 => lead.toNat - 0xc0
  | 2 => lead.toNat - 0xe0
  | _ => lead.toNat - 0xf0

/-- The first character of `lead :: rest`, and how many bytes of `rest` belong to it. -/
def first (lead : UInt8) (rest : List UInt8) : Char × Nat :=
  match followers lead with
  | none => (replacement, 0)
  | some ranges =>
    let n := matching ranges rest
    if n = ranges.length then
      (Char.ofNat ((rest.take n).foldl (fun acc b => acc * 64 + (b.toNat - 0x80)) (payload lead n)), n)
    else (replacement, n)

/-- The characters of the bytes after the first `skip` of them. -/
def decodeAfter : Nat → List UInt8 → List Char
  | _, [] => []
  | skip + 1, _ :: rest => decodeAfter skip rest
  | 0, lead :: rest => (first lead rest).1 :: decodeAfter (first lead rest).2 rest

/-- The characters that bytes encode, with U+FFFD for what encodes none. -/
def decode (bytes : List UInt8) : List Char :=
  decodeAfter 0 bytes

end Utf8

end BoundSql
