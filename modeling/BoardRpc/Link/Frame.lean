import BoardRpc.Word

/-! Command frames: the numbers of a class and a verb, then a payload. -/

namespace BoardRpc

/-- Bytes in front of the payload. -/
def headerSize : Nat := 8

/-- The largest frame that a device takes, and the largest response that it gives. -/
def maxCommandSize : Nat := 4096

/-- Bytes of the error number that answers a cancel. -/
def errnoSize : Nat := 4

/-- What a transfer asks for beside its bytes. -/
structure CommandFlags where
  /-- No response will be read. -/
  skipResponse : Bool := false
  /-- The frame sent last is to be executed again. -/
  repeatLast : Bool := false
  deriving DecidableEq, Repr, Inhabited

namespace CommandFlags

/-- The flags among bits, of which only the lowest two mean something. -/
def ofBits (bits : Nat) : CommandFlags := ⟨bits % 2 == 1, bits / 2 % 2 == 1⟩

/-- The bits of the flags. -/
def toBits (flags : CommandFlags) : Nat :=
  (if flags.skipResponse then 1 else 0) + (if flags.repeatLast then 2 else 0)

end CommandFlags

/-- A command for one verb of one class. -/
structure CommandFrame where
  classNumber : UInt32
  verbNumber : UInt32
  payload : Bytes
  deriving DecidableEq, Repr, Inhabited

namespace CommandFrame

/-- Bytes of the frame on the wire. -/
def size (frame : CommandFrame) : Nat := headerSize + frame.payload.length

/-- The frame on the wire. -/
def encode (frame : CommandFrame) : Bytes :=
  -- Both numbers are little-endian, and the payload is not measured.
  Word.split 4 frame.classNumber.toNat ++ Word.split 4 frame.verbNumber.toNat ++ frame.payload

/-- The frame that bytes on the wire stand for, unless they are too few for the header. -/
def decode? (data : Bytes) : Option CommandFrame :=
  -- A payload may be empty, a header may not.
  if data.length < headerSize then none
  else some
    { classNumber := UInt32.ofNat (Word.join (data.take 4))
      verbNumber := UInt32.ofNat (Word.join ((data.drop 4).take 4))
      payload := data.drop headerSize }

/-- A frame takes as many bytes as its size says. -/
@[simp] theorem length_encode (frame : CommandFrame) : frame.encode.length = frame.size := by
  -- Each of the two numbers takes four bytes.
  simp [encode, size, headerSize]; omega

/-- A frame is read as the one that was written. -/
theorem decode?_encode (frame : CommandFrame) : decode? frame.encode = some frame := by
  -- Both numbers are told by their four bytes.
  obtain ⟨classNumber, verbNumber, payload⟩ := frame
  have enough : ¬ (encode ⟨classNumber, verbNumber, payload⟩).length < headerSize := by
    rw [length_encode]; simp [size]
  simp only [decode?, if_neg enough]
  -- The header ends after the two words, and each word after its four bytes.
  have front (a b : Nat) (rest : Bytes) :
      ((Word.split 4 a ++ Word.split 4 b) ++ rest).take 4 = Word.split 4 a := by
    rw [List.append_assoc]; exact List.take_left' (Word.length_split ..)
  have middle (a b : Nat) (rest : Bytes) :
      ((Word.split 4 a ++ Word.split 4 b) ++ rest).drop 4 = Word.split 4 b ++ rest := by
    rw [List.append_assoc]; exact List.drop_left' (Word.length_split ..)
  have back (a b : Nat) (rest : Bytes) :
      ((Word.split 4 a ++ Word.split 4 b) ++ rest).drop headerSize = rest :=
    List.drop_left' (by simp [headerSize])
  simp only [encode, front, middle, back, List.take_left' (Word.length_split ..),
    Word.ofNat_join_split]

end CommandFrame

end BoardRpc
