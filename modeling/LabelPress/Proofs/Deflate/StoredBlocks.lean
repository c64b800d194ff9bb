import LabelPress.Deflate.Zlib

/-!
# Data that is stored as it is

A stream without compression is a row of blocks that hold bytes as they are.  The head of such a
block gives its length (`Deflate.head_storedBlock`), so that the blocks are read one after the other
until all bytes are there (`Deflate.fill?_deflate`).  What follows the last block is not looked at,
and so a stream in one part gives back the data that it was made of (`Zlib.decompress?_compress`).
-/

namespace LabelPress

namespace Deflate

/-- The heads of blocks take no more room than the bytes, up to the first one. -/
theorem length_deflate_le (bytes : List UInt8) :
    (deflate bytes).length ≤ 2 * bytes.length + 5 := by
  have limit : storedSize = 65535 := rfl
  induction bytes using deflate.induct with
  | case1 bytes lengthLe =>
      rw [deflate, if_pos lengthLe]
      simp only [storedBlock, List.length_append, List.length_cons, List.length_nil]
      omega
  | case2 bytes lengthGt ih =>
      rw [List.length_drop] at ih
      rw [deflate, if_neg lengthGt]
      simp only [storedBlock, List.length_append, List.length_cons, List.length_nil,
        List.length_take]
      omega

/-- The number and its complement at the head of a block of bytes as they are. -/
theorem storedHead_of_length {length : Nat} (lengthLe : length ≤ storedSize)
    (pending : List Bool) (bytes : List UInt8) :
    storedHead ⟨pending, UInt8.ofNat length :: UInt8.ofNat (length / 256) ::
        UInt8.ofNat (storedSize - length) :: UInt8.ofNat ((storedSize - length) / 256) :: bytes⟩ =
      .ok (.stored length, .ofBytes bytes) := by
  have limit : storedSize = 65535 := rfl
  have number : (UInt8.ofNat length).toNat + 256 * (UInt8.ofNat (length / 256)).toNat =
      length := by
    rw [UInt8.toNat_ofNat', UInt8.toNat_ofNat']
    omega
  have complement : (UInt8.ofNat (storedSize - length)).toNat +
      256 * (UInt8.ofNat ((storedSize - length) / 256)).toNat = storedSize - length := by
    rw [UInt8.toNat_ofNat', UInt8.toNat_ofNat']
    omega
  rw [storedHead, BitStream.aligned]
  dsimp only
  rw [number, complement, if_pos (by omega)]

/-- The first three bits of a block tell whether it is the last one, and its kind. -/
theorem number?_storedBlock (last : Bool) (bytes : List UInt8) :
    BitStream.number? 3 (.ofBytes ((if last then 1 else 0) :: bytes)) =
      some (last.toNat, ⟨List.replicate 5 false, bytes⟩) := by
  cases last <;> rfl

/-- The head of a block of bytes as they are. -/
theorem head_storedBlock (last : Bool) {bytes : List UInt8}
    (lengthLe : bytes.length ≤ storedSize) (rest : List UInt8) :
    head (.ofBytes (storedBlock last bytes ++ rest)) =
      .ok (⟨last, .stored bytes.length⟩, .ofBytes (bytes ++ rest)) := by
  have enough : (BitStream.ofBytes (storedBlock last bytes ++ rest)).holds leastBits = true := by
    rw [BitStream.holds_iff]
    simp only [BitStream.size, BitStream.ofBytes, storedBlock, leastBits, List.length_append,
      List.length_cons]
    omega
  have kind : last.toNat / 2 = 0 := by
    cases last <;> rfl
  have mark : decide (last.toNat % 2 = 1) = last := by
    cases last <;> rfl
  rw [head, if_pos enough, storedBlock, List.cons_append, List.cons_append, number?_storedBlock]
  dsimp only
  rw [kind, bodyOfKind, if_pos rfl]
  simp only [List.cons_append, List.nil_append]
  rw [storedHead_of_length lengthLe, mark]

/-- Bytes that all are wanted, as they are; more bytes may be wanted behind them. -/
theorem storedBytes?_append {limit : Nat} {output : Array UInt8} {bytes : List UInt8}
    (wanted : output.size + bytes.length ≤ limit) (rest : List UInt8) :
    storedBytes? limit bytes.length output (.ofBytes (bytes ++ rest)) =
      some (if output.size + bytes.length < limit then
        .ended (output ++ bytes.toArray) (.ofBytes rest)
      else .full (output ++ bytes.toArray) (some (.stored 0)) (.ofBytes rest)) := by
  have count : min bytes.length (limit - output.size) = bytes.length := by omega
  have all : (bytes ++ rest).take bytes.length = bytes := List.take_left
  have behind : (bytes ++ rest).drop bytes.length = rest := List.drop_left
  rw [storedBytes?]
  simp only [BitStream.aligned, BitStream.ofBytes, count, all, behind, Nat.lt_irrefl, if_false,
    Nat.sub_self, Array.size_append, List.size_toArray]
  split <;> rfl

/-- Behind the head of a block its bytes are read, and then those of the blocks that follow. -/
theorem fill?_of_head {limit : Nat} {output : Array UInt8} {stream start : BitStream}
    {block : Block} (headRead : head stream = .ok (block, start)) :
    fill? limit output stream =
      match block.body.read? limit output start with
      | none => none
      | some (.full output left rest) =>
        some ⟨output, left.map fun body => ⟨block.last, body⟩, rest⟩
      | some (.ended output rest) => if block.last then none else fill? limit output rest := by
  rw [fill?]
  split
  · next failed =>
      rw [headRead] at failed
      cases failed
  · next found =>
      rw [headRead] at found
      cases found
      split <;> next read => rw [read]

/-- All bytes of blocks that hold them as they are, behind those that are there already. -/
theorem fill?_deflate {limit : Nat} (output : Array UInt8) (bytes rest : List UInt8)
    (wanted : output.size + bytes.length = limit) :
    fill? limit output (.ofBytes (deflate bytes ++ rest)) =
      some ⟨output ++ bytes.toArray, some ⟨true, .stored 0⟩, .ofBytes rest⟩ := by
  induction bytes using deflate.induct generalizing output with
  | case1 bytes lengthLe =>
      have bodyRead := storedBytes?_append (Nat.le_of_eq wanted) rest
      rw [if_neg (by omega)] at bodyRead
      rw [deflate, if_pos lengthLe, fill?_of_head (head_storedBlock true lengthLe rest), Body.read?,
        bodyRead]
      rfl
  | case2 bytes lengthGt ih =>
      have front : (bytes.take storedSize).length = storedSize := by
        rw [List.length_take]
        omega
      have behind : (bytes.drop storedSize).length = bytes.length - storedSize :=
        List.length_drop
      have fits : output.size + (bytes.take storedSize).length ≤ limit := by omega
      have bodyRead := storedBytes?_append fits (deflate (bytes.drop storedSize) ++ rest)
      rw [if_pos (by omega)] at bodyRead
      have size : (output ++ (bytes.take storedSize).toArray).size = output.size + storedSize :=
        Array.size_append.trans (congrArg (output.size + ·) front)
      have whole : output ++ (bytes.take storedSize).toArray ++ (bytes.drop storedSize).toArray =
          output ++ bytes.toArray := by
        have parts : (bytes.take storedSize).toArray ++ (bytes.drop storedSize).toArray =
            bytes.toArray := by
          rw [List.append_toArray, List.take_append_drop]
        rw [Array.append_assoc, parts]
      rw [deflate, if_neg lengthGt, List.append_assoc,
        fill?_of_head (head_storedBlock false (Nat.le_of_eq front) _), Body.read?, bodyRead, ← whole]
      exact ih _ (by omega)

end Deflate

namespace Zlib

/-- A stream gives back the data that it was made of. -/
theorem decompress?_compress (data : List UInt8) :
    decompress? data.length [compress data] = some data.toArray := by
  have announced : announces 0x78 0x01 = true := by
    decide
  have filled := Deflate.fill?_deflate #[] data (BigEndian.bytes 4 (checksum data)) (Nat.zero_add _)
  have sound : ∀ rest : BitStream, Deflate.Block.isSound ⟨true, .stored 0⟩ rest = true := by
    intro rest
    rw [Deflate.Block.isSound]
    rfl
  rw [decompress?, List.flatten_singleton, compress]
  simp only [List.cons_append, List.nil_append]
  rw [if_pos announced, filled]
  simp only [Option.all_some, sound, if_true, Array.empty_append]

end Zlib

end LabelPress
