import Mathlib.Tactic.Lemma

/-!
# Bytes and the codes of the serializer

The outcome codes of `serialization/definitions.h`, and the variadic calls, which handle one value
after the other until the first failure.
-/

namespace OsterLib.Serialization

/-- `char`, by its eight bits. -/
abbrev Byte := UInt8

/-- `SerializationEC` -/
inductive SerializationEC where
  | none
  | bufferSizeLesser
  | unmatchedType
  | bufferOverflow
  | fileWritingError
  | unexpectedEof
  | fileReadingError
  deriving DecidableEq, Repr

/-- What `serialize_network` does for one value: it appends to the buffer and returns a code. -/
abbrev Serializer := List Byte → SerializationEC × List Byte

/-- The fold over `&&` of the variadic calls: the first code other than `NONE` ends it. -/
def serializeAll : List Serializer → Serializer
  | [], buffer => (.none, buffer)
  | value :: values, buffer =>
    match value buffer with
    | (.none, buffer) => serializeAll values buffer
    | failed => failed

end OsterLib.Serialization
