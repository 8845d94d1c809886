import SchemaForm.File.Tree

set_option autoImplicit false
set_option relaxedAutoImplicit false

/-!
The gzip format with its data in stored blocks, the only kind that is written and read here.
-/

namespace SchemaForm

namespace Gzip

/-- The bits of a number, lowest byte first. -/
def littleEndian : Nat → Nat → Bytes
  | 0, _ => []
  | count + 1, n => UInt8.ofNat (n % 256) :: littleEndian count (n / 256)

/-- The number of some bytes, lowest byte first. -/
def ofLittleEndian : Bytes → Nat
  | [] => 0
  | b :: rest => b.toNat + 256 * ofLittleEndian rest

/-- One step of the division by the checksum's polynomial. -/
def checksumBit (c : UInt32) : UInt32 := if c &&& 1 = 1 then (c >>> 1) ^^^ 0xEDB88320 else c >>> 1

def checksumByte (c : UInt32) (b : UInt8) : UInt32 :=
  (List.range 8).foldl (fun c _ => checksumBit c) (c ^^^ b.toUInt32)

def checksum (bytes : Bytes) : UInt32 := bytes.foldl checksumByte 0xFFFFFFFF ^^^ 0xFFFFFFFF

/-- The first bytes of a member: its marks, the method, and nothing about name, time or system. -/
def header : Bytes := [0x1F, 0x8B, 8, 0, 0, 0, 0, 0, 0, 0xFF]

/-- How many bytes a stored block can hold. -/
def blockSize : Nat := 65535

def block (last : Bool) (bytes : Bytes) : Bytes :=
  (if last then 1 else 0) ::
    (littleEndian 2 bytes.length ++ littleEndian 2 (blockSize - bytes.length) ++ bytes)

/-- The bytes in stored blocks. The fuel is the number of bytes. -/
def blocks : Nat → Bytes → Bytes
  | 0, bytes => block true bytes
  | fuel + 1, bytes =>
    if bytes.length ≤ blockSize then
      block true bytes
    else
      block false (bytes.take blockSize) ++ blocks fuel (bytes.drop blockSize)

def pack (bytes : Bytes) : Bytes :=
  header ++ blocks bytes.length bytes ++ littleEndian 4 (checksum bytes).toNat ++
    littleEndian 4 bytes.length

/-- Reads stored blocks: their bytes, and what follows the last one. Every block begins with a byte
of its own, so the fuel is the number of bytes. -/
def unblock? : Nat → Bytes → Option (Bytes × Bytes)
  | 0, _ => none
  | fuel + 1, last :: a :: b :: c :: d :: rest =>
    let size := ofLittleEndian [a, b]
    if 1 < last ∨ size + ofLittleEndian [c, d] ≠ blockSize ∨ rest.length < size then
      none
    else if last = 1 then
      some (rest.take size, rest.drop size)
    else
      (unblock? fuel (rest.drop size)).map fun (bytes, rest') => (rest.take size ++ bytes, rest')
  | _ + 1, _ => none

def unpack? (packed : Bytes) : Option Bytes :=
  if packed.take header.length = header then
    (unblock? packed.length (packed.drop header.length)).bind fun (bytes, trailer) =>
      if trailer.take 8 =
          littleEndian 4 (checksum bytes).toNat ++ littleEndian 4 bytes.length then
        some bytes
      else
        none
  else
    none

/-- Whether the name of a file says that it is packed. -/
def isNamedPacked (name : String) : Bool :=
  (FileName.extension? name).any fun cs => cs.map Char.toLower == ['g', 'z']

end Gzip

end SchemaForm
