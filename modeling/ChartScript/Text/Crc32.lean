/-!
# A checksum of text

The cyclic redundancy check of 32 bits that archives and images use, over the UTF-8 bytes of a text.
The register starts with all bits set and is inverted at the end; every byte is taken in with its
lowest bit first, and a bit that leaves the register is answered with the polynomial.
-/

namespace ChartScript.Text

/-- The polynomial, its bits in reverse order. -/
def crcPolynomial : UInt32 := 0xEDB88320

/-- The register after one bit. -/
def crcBit (register : UInt32) : UInt32 :=
  if register &&& 1 = 1 then (register >>> 1) ^^^ crcPolynomial else register >>> 1

/-- The register after one byte. -/
def crcByte (register : UInt32) (byte : UInt8) : UInt32 :=
  (List.range 8).foldl (fun r _ => crcBit r) (register ^^^ byte.toUInt32)

/-- The checksum of a text. -/
def crc32 (text : String) : UInt32 :=
  (text.toUTF8.toList.foldl crcByte 0xFFFFFFFF) ^^^ 0xFFFFFFFF

end ChartScript.Text
