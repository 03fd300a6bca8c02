/-!
The cyclic redundancy check of compressed data: the remainder of the data, taken as a
polynomial over two elements, by a fixed polynomial of degree 32, with bits in reverse
order and complemented at both ends.
-/

namespace CallCensus.Archive

/-- One bit of the division. -/
def crcShift (c : UInt32) : UInt32 :=
  if c &&& 1 = 1 then (c >>> 1) ^^^ 0xedb88320 else c >>> 1

/-- Eight bits of the division. -/
def crcByte (c : UInt32) (b : UInt8) : UInt32 :=
  crcShift (crcShift (crcShift (crcShift (crcShift (crcShift (crcShift (crcShift
    (c ^^^ b.toUInt32))))))))

/-- The check of a byte sequence. -/
def crc32 (data : ByteArray) : UInt32 :=
  data.foldl crcByte 0xffffffff ^^^ 0xffffffff

end CallCensus.Archive
