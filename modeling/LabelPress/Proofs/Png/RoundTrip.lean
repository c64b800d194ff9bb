import LabelPress.Png
import LabelPress.Proofs.Deflate.StoredBlocks
import LabelPress.Proofs.Picture.Turning

/-!
# A file gives back its picture

Reading undoes what writing did, layer by layer: a chunk is read back from its bytes
(`Chunk.next?_bytes`), a head from its chunk (`Header.ofBytes?_bytes`), the rows from the compressed
pixels (`read?_storedRows`), and the samples from the rows (`byte_of_sample`).  `decode_file` joins
these for a picture that has no more bytes than are read; every picture that is read is of that kind
(`byteCount_le_of_decode`), so that a picture is restored from its file exactly if it is not too
large (`restores_iff`).
-/

namespace LabelPress.Png

/-! ## Chunks -/

namespace Chunk

/-- The parts of a chunk, with what stands behind it. -/
theorem bytes_append (chunk : Chunk) (rest : List UInt8) :
    chunk.bytes ++ rest =
      BigEndian.bytes 4 chunk.data.length ++ (chunk.kind ++ (chunk.data ++
        (BigEndian.bytes 4 (checkValue (chunk.kind ++ chunk.data)) ++ rest))) := by
  simp only [bytes, List.append_assoc]

theorem length_bytes {chunk : Chunk} (kindLength : chunk.kind.length = 4) :
    chunk.bytes.length = chunk.data.length + 12 := by
  simp only [bytes, List.length_append, BigEndian.length_bytes, kindLength]
  omega

theorem drop_four_bytes (chunk : Chunk) (rest : List UInt8) :
    (chunk.bytes ++ rest).drop 4 = chunk.kind ++ (chunk.data ++
      (BigEndian.bytes 4 (checkValue (chunk.kind ++ chunk.data)) ++ rest)) := by
  rw [bytes_append, List.drop_left' (BigEndian.length_bytes _ _)]

/-- A chunk is read back from its bytes, with what stands behind it. -/
theorem next?_bytes {chunk : Chunk} (kindLength : chunk.kind.length = 4)
    (fits : chunk.data.length < Nat.pow 256 4) (rest : List UInt8) :
    next? (chunk.bytes ++ rest) = some ⟨chunk, true, rest⟩ := by
  have lengthRead : BigEndian.number ((chunk.bytes ++ rest).take 4) = chunk.data.length := by
    rw [bytes_append, List.take_left' (BigEndian.length_bytes _ _), BigEndian.number_bytes _ _ fits]
  have kindRead : ((chunk.bytes ++ rest).drop 4).take 4 = chunk.kind := by
    rw [drop_four_bytes, List.take_left' kindLength]
  have behindKind : (chunk.bytes ++ rest).drop 8 = chunk.data ++
      (BigEndian.bytes 4 (checkValue (chunk.kind ++ chunk.data)) ++ rest) := by
    rw [← List.drop_drop (i := 4) (j := 4), drop_four_bytes, List.drop_left' kindLength]
  have behindData : (chunk.bytes ++ rest).drop (8 + chunk.data.length) =
      BigEndian.bytes 4 (checkValue (chunk.kind ++ chunk.data)) ++ rest := by
    rw [← List.drop_drop, behindKind, List.drop_left]
  have check : BigEndian.number (BigEndian.bytes 4 (checkValue (chunk.kind ++ chunk.data))) =
      checkValue (chunk.kind ++ chunk.data) :=
    BigEndian.number_bytes _ _ (UInt32.toNat_lt _)
  have enough : chunk.data.length + 12 ≤ (chunk.bytes ++ rest).length := by
    rw [List.length_append, length_bytes kindLength]
    omega
  rw [next?]
  dsimp only
  rw [lengthRead, if_neg (by omega), kindRead, behindKind, behindData, List.take_left,
    List.take_left' (BigEndian.length_bytes _ _), List.drop_left' (BigEndian.length_bytes _ _),
    check, decide_eq_true rfl]

theorem kind?_bytes {chunk : Chunk} (kindLength : chunk.kind.length = 4) (rest : List UInt8) :
    kind? (chunk.bytes ++ rest) = some chunk.kind := by
  have enough : 8 ≤ (chunk.bytes ++ rest).length := by
    rw [List.length_append, length_bytes kindLength]
    omega
  rw [kind?, if_pos enough, drop_four_bytes, List.take_left' kindLength]

/-- A chunk of pixels adds its data to those before it. -/
theorem pixelParts?_of_pixels (number : Nat) (reversed : List (List UInt8)) {data : List UInt8}
    (fits : data.length < Nat.pow 256 4) (rest : List UInt8) :
    pixelParts? pixels number reversed ((⟨pixels, data⟩ : Chunk).bytes ++ rest) =
      pixelParts? pixels (number + 1) (data :: reversed) rest := by
  have kindLength : (⟨pixels, data⟩ : Chunk).kind.length = 4 := rfl
  have found := next?_bytes kindLength fits rest
  rw [pixelParts?, kind?_bytes kindLength]
  dsimp only
  rw [if_pos rfl]
  split
  · next failed =>
      rw [found] at failed
      cases failed
  · next read =>
      rw [found] at read
      cases read
      rw [pixelData?, if_pos rfl]
      rfl

/-- The pixels end at a chunk of another kind. -/
theorem pixelParts?_of_other (number : Nat) (reversed : List (List UInt8)) {chunk : Chunk}
    (kindLength : chunk.kind.length = 4) (other : chunk.kind ≠ pixels) (rest : List UInt8) :
    pixelParts? pixels number reversed (chunk.bytes ++ rest) = some reversed.reverse := by
  rw [pixelParts?, kind?_bytes kindLength]
  exact if_neg other

end Chunk

/-! ## Heads -/

/-- A head that can stand in a file. -/
structure Header.WellFormed (header : Header) : Prop where
  widthPos : 0 < header.width
  width : header.width < Nat.pow 256 4
  heightPos : 0 < header.height
  height : header.height < Nat.pow 256 4
  depth : header.depth ∈ header.color.depths

theorem ColorType.ofNat?_toNat (color : ColorType) :
    ofNat? (UInt8.ofNat color.toNat).toNat = some color := by
  cases color <;> rfl

theorem ColorType.le_of_mem_depths {color : ColorType} {depth : Nat}
    (member : depth ∈ color.depths) : depth ≤ 16 := by
  have all : ∀ depth ∈ color.depths, depth ≤ 16 := by
    cases color <;> decide
  exact all depth member

/-- A head is read back from its bytes. -/
theorem Header.ofBytes?_bytes {header : Header} (wellFormed : header.WellFormed) :
    ofBytes? header.bytes = some header := by
  have widthRead := BigEndian.number_bytes 4 header.width wellFormed.width
  have heightRead := BigEndian.number_bytes 4 header.height wellFormed.height
  have depthRead : (UInt8.ofNat header.depth).toNat = header.depth := by
    have depthLe := ColorType.le_of_mem_depths wellFormed.depth
    rw [UInt8.toNat_ofNat']
    omega
  have orderRead : ((if header.interlaced then 1 else 0 : UInt8) == 1) = header.interlaced := by
    cases header.interlaced <;> rfl
  have orderLe : (if header.interlaced then 1 else 0 : UInt8) ≤ 1 := by
    cases header.interlaced <;> decide
  have first : header.bytes.take 4 = BigEndian.bytes 4 header.width := by
    rw [bytes, List.append_assoc, List.take_left' (BigEndian.length_bytes _ _)]
  have second : (header.bytes.drop 4).take 4 = BigEndian.bytes 4 header.height := by
    rw [bytes, List.append_assoc, List.drop_left' (BigEndian.length_bytes _ _),
      List.take_left' (BigEndian.length_bytes _ _)]
  have last : header.bytes.drop 8 = [UInt8.ofNat header.depth, UInt8.ofNat header.color.toNat, 0, 0,
      if header.interlaced then 1 else 0] := by
    rw [bytes, List.drop_left' (by rw [List.length_append, BigEndian.length_bytes,
      BigEndian.length_bytes])]
  rw [ofBytes?, last]
  dsimp only
  rw [ColorType.ofNat?_toNat, first, second, widthRead, heightRead, depthRead, orderRead]
  have admitted : header.depth ∈ header.color.depths ∧ (0 : UInt8) = 0 ∧ (0 : UInt8) = 0 ∧
      (if header.interlaced then 1 else 0 : UInt8) ≤ 1 ∧ 0 < header.width ∧ 0 < header.height :=
    ⟨wellFormed.depth, rfl, rfl, orderLe, wellFormed.widthPos, wellFormed.heightPos⟩
  show (do guard _; return header : Option Header) = some header
  rw [guard, if_pos admitted]
  rfl

/-! ## Rows -/

/-- A row that is stored without a filter. -/
theorem Scanline.restore_plain (step : Nat) (previous : Array UInt8) (stored : List UInt8) :
    restore .plain step previous stored = stored.toArray := by
  have grown : ∀ row : Array UInt8, stored.foldl (fun row byte =>
      row.push (byte + Filter.expected .plain
        (if step ≤ row.size then row.getD (row.size - step) 0 else 0) (previous.getD row.size 0)
        (if step ≤ row.size then previous.getD (row.size - step) 0 else 0))) row =
      row ++ stored.toArray := by
    induction stored with
    | nil =>
        intro row
        exact Array.append_empty.symm
    | cons byte stored ih =>
        intro row
        rw [List.foldl_cons, ih]
        simp [Filter.expected]
  exact (grown #[]).trans Array.empty_append

/-- Rows that are stored one after the other without a filter. -/
theorem Scanline.rows?_plain {size : Nat} (step : Nat) (rows : List (List UInt8))
    (sizes : ∀ row ∈ rows, row.length = size) (done : Array (Array UInt8)) (rest : List UInt8) :
    rows? size step done rows.length (rows.flatMap (0 :: ·) ++ rest) =
      some (done ++ (rows.map List.toArray).toArray, rest) := by
  induction rows generalizing done with
  | nil =>
      show some (done, rest) = some (done ++ #[], rest)
      rw [Array.append_empty]
  | cons row rows ih =>
      have length := sizes row List.mem_cons_self
      have later := ih fun other member => sizes other (List.mem_cons_of_mem row member)
      rw [List.flatMap_cons, List.append_assoc, List.cons_append, List.length_cons, rows?]
      show (if ((row ++ (rows.flatMap (0 :: ·) ++ rest)).take size).length = size then _ else _) = _
      rw [List.take_left' length, List.drop_left' length, if_pos length, restore_plain, later]
      simp

/-! ## The pixels of a picture -/

theorem storedRows_eq (picture : Picture) :
    storedRows picture = ((List.range picture.height).map (storedRow picture)).flatMap (0 :: ·) := by
  rw [storedRows, List.flatMap_map]

theorem length_storedRow (picture : Picture) (row : Nat) :
    (storedRow picture row).length = picture.width * picture.format.pixelBytes := by
  simp [storedRow]

/-- A byte in front of each row, and the bytes of the picture. -/
theorem length_storedRows (picture : Picture) :
    (storedRows picture).length =
      picture.height * (1 + picture.width * picture.format.pixelBytes) := by
  simp [storedRows, length_storedRow, List.length_flatMap, Nat.add_comm]

/-- A row of the picture of a head has whole bytes. -/
theorem rowBytes_headerOf (picture : Picture) (width : Nat) :
    (headerOf picture).rowBytes width = width * picture.format.pixelBytes := by
  obtain ⟨_, _, ⟨channels, depth⟩, _⟩ := picture
  cases channels <;> cases depth <;>
    simp only [Header.rowBytes, Header.pixelBits, headerOf, ColorType.samples,
      PixelFormat.pixelBytes, Channels.count, Depth.bytes] <;>
    omega

theorem width_whole (width : Nat) : Pass.whole.width width = width := by
  simp [Pass.width, Pass.whole]

theorem height_whole (height : Nat) : Pass.whole.height height = height := by
  simp [Pass.height, Pass.whole]

theorem rowCount_whole {header : Header} (widthPos : 0 < header.width) :
    Pass.whole.rowCount header = header.height := by
  rw [Pass.rowCount, width_whole, if_neg (Nat.ne_of_gt widthPos), height_whole]

theorem storedBytes_headerOf {picture : Picture} (widthPos : 0 < picture.width) :
    storedBytes (headerOf picture) = (storedRows picture).length := by
  show 0 + Pass.whole.storedBytes (headerOf picture) = _
  rw [Nat.zero_add, Pass.storedBytes, rowCount_whole widthPos, width_whole, rowBytes_headerOf,
    length_storedRows]
  rfl

/-- The stored rows of a picture, once the marks of the filters are taken off. -/
def layerOf (picture : Picture) : Layer where
  pass := .whole
  rows := (((List.range picture.height).map (storedRow picture)).map List.toArray).toArray

theorem read?_storedRows {picture : Picture} (widthPos : 0 < picture.width) :
    Layer.read? (headerOf picture) (Pass.ofHeader (headerOf picture)) (storedRows picture) =
      some [layerOf picture] := by
  have sizes : ∀ row ∈ (List.range picture.height).map (storedRow picture),
      row.length = (headerOf picture).rowBytes (Pass.whole.width (headerOf picture).width) := by
    intro row member
    rcases List.mem_map.mp member with ⟨number, -, rfl⟩
    rw [length_storedRow, width_whole, rowBytes_headerOf]
    rfl
  have rows := Scanline.rows?_plain (max 1 ((headerOf picture).pixelBits / 8)) _ sizes #[] []
  rw [List.length_map, List.length_range, List.append_nil, ← storedRows_eq,
    Array.empty_append] at rows
  show Layer.read? (headerOf picture) [.whole] (storedRows picture) = _
  rw [Layer.read?, rowCount_whole widthPos, show (headerOf picture).height = picture.height from rfl,
    rows]
  rfl

/-- A sample is found in the row of its pixel. -/
theorem sample_layerOf {picture : Picture} {x y : Nat} (row : y < picture.height) (number : Nat) :
    Layer.sample (headerOf picture) [layerOf picture] x y number =
      Layer.sampleOfRow (headerOf picture).depth (storedRow picture y).toArray
        (x * (headerOf picture).color.samples + number) := by
  have covered : (layerOf picture).pass.covers x y = true := by
    simp [layerOf, Pass.covers, Pass.whole, Nat.mod_one]
  have found : (layerOf picture).rows.getD y #[] = (storedRow picture y).toArray := by
    simp [layerOf, row]
  have first : [layerOf picture].find? (fun layer => layer.pass.covers x y) =
      some (layerOf picture) := List.find?_cons_of_pos covered
  rw [Layer.sample, first]
  dsimp only
  rw [show (layerOf picture).pass = .whole from rfl]
  simp only [Pass.whole, Nat.sub_zero, Nat.div_one]
  rw [found]

/-- Samples of whole bytes are those of the picture. -/
theorem sample_headerOf (picture : Picture) (stored : Nat → Nat) {number : Nat}
    (known : number < picture.format.channels.count) :
    Expansion.sample (headerOf picture) {} stored number = stored number := by
  obtain ⟨_, _, ⟨channels, depth⟩, _⟩ := picture
  cases channels with
  | grey =>
      cases depth <;> exact if_pos known
  | greyAlpha =>
      rfl
  | rgb =>
      cases depth <;> exact if_pos known
  | rgba =>
      rfl

theorem format_headerOf (picture : Picture) :
    Expansion.format (headerOf picture) {} = picture.format := by
  obtain ⟨_, _, ⟨channels, depth⟩, _⟩ := picture
  cases channels <;> cases depth <;> rfl

theorem samples_headerOf (picture : Picture) :
    (headerOf picture).color.samples = picture.format.channels.count := by
  obtain ⟨_, _, ⟨channels, depth⟩, _⟩ := picture
  cases channels <;> rfl

theorem depth_headerOf (picture : Picture) :
    (headerOf picture).depth ∈ (headerOf picture).color.depths := by
  obtain ⟨_, _, ⟨channels, depth⟩, _⟩ := picture
  cases channels <;> cases depth <;> simp [headerOf, ColorType.depths, Depth.bytes]

/-- The place in a row at which a byte is stored: the high byte of a sample stands first. -/
def storedPlace (depth : Depth) (place : Nat) : Nat :=
  match depth with
  | .eight => place
  | .sixteen => if place % 2 = 0 then place + 1 else place - 1

theorem getD_storedRow (picture : Picture) (row : Nat) {place : Nat}
    (inside : place < picture.width * picture.format.pixelBytes) :
    (storedRow picture row).toArray.getD place 0 =
      picture.bytes.getD (row * (picture.width * picture.format.pixelBytes) +
        storedPlace picture.format.depth place) 0 := by
  rw [Array.getD_eq_getD_getElem?, List.getElem?_toArray, storedRow, List.getElem?_map,
    List.getElem?_range inside]
  rfl

theorem sampleOfRow_eight (row : Array UInt8) (number : Nat) :
    Layer.sampleOfRow 8 row number = (row.getD number 0).toNat := by
  have small := (row.getD number 0).toNat_lt
  simp only [Layer.sampleOfRow, Nat.reduceEqDiff, if_false, Nat.reduceDiv, Nat.div_one, Nat.mod_one,
    Nat.zero_add, Nat.mul_one, Nat.sub_self, Nat.pow_eq, Nat.pow_zero]
  omega

theorem sampleOfRow_sixteen (row : Array UInt8) (number : Nat) :
    Layer.sampleOfRow 16 row number =
      256 * (row.getD (2 * number) 0).toNat + (row.getD (2 * number + 1) 0).toNat :=
  rfl

/-- The byte of a picture at a place in a row. -/
theorem getD_bytes (picture : Picture) (x y place : Nat) :
    picture.bytes.getD (y * (picture.width * picture.format.pixelBytes) +
      (x * picture.format.pixelBytes + place)) 0 = picture.byte x y place := by
  rw [Picture.byte, Nat.add_mul, Nat.mul_assoc, Nat.add_assoc]

/-- The sample that a byte of a picture belongs to holds that byte, low bytes first. -/
theorem byte_of_sample {picture : Picture} {x place : Nat} (y : Nat) (column : x < picture.width)
    (inside : place < picture.format.pixelBytes) :
    UInt8.ofNat (Layer.sampleOfRow (8 * picture.format.depth.bytes)
        (storedRow picture y).toArray
        (x * picture.format.channels.count + place / picture.format.depth.bytes) /
          Nat.pow 256 (place % picture.format.depth.bytes)) =
      picture.byte x y place := by
  have size : picture.format.pixelBytes =
      picture.format.channels.count * picture.format.depth.bytes := rfl
  have inRow : ∀ place < picture.format.pixelBytes,
      x * picture.format.pixelBytes + place < picture.width * picture.format.pixelBytes := by
    intro place inside
    have bound := Grid.index_lt inside column
    rw [Nat.mul_comm picture.format.pixelBytes] at bound
    exact bound
  cases depth : picture.format.depth with
  | eight =>
      have one : picture.format.pixelBytes = picture.format.channels.count := by
        rw [size, depth]
        exact Nat.mul_one _
      have stored := getD_storedRow picture y (inRow place inside)
      rw [depth, storedPlace, getD_bytes, one] at stored
      show UInt8.ofNat (Layer.sampleOfRow 8 _ _ / _) = _
      rw [sampleOfRow_eight, Depth.bytes, Nat.div_one, Nat.mod_one, stored]
      show UInt8.ofNat (_ / 1) = _
      rw [Nat.div_one, UInt8.ofNat_toNat]
  | sixteen =>
      have two : picture.format.pixelBytes = 2 * picture.format.channels.count := by
        rw [size, depth]
        exact Nat.mul_comm _ _
      -- The two bytes of the sample stand at `first` and behind it, in the other order.
      obtain ⟨number, first⟩ : ∃ number, number = place / 2 := ⟨_, rfl⟩
      have start : 2 * (x * picture.format.channels.count + number) =
          x * picture.format.pixelBytes + 2 * number := by
        rw [two, Nat.mul_add, Nat.mul_left_comm]
      have high := getD_storedRow picture y (inRow (2 * number) (by omega))
      have low := getD_storedRow picture y (inRow (2 * number + 1) (by omega))
      have even : (x * picture.format.pixelBytes + 2 * number) % 2 = 0 := by
        rw [← start]
        omega
      rw [depth, storedPlace, if_pos even, Nat.add_assoc, getD_bytes] at high
      rw [depth, storedPlace, if_neg (by omega), ← Nat.add_assoc, Nat.add_sub_cancel,
        getD_bytes] at low
      show UInt8.ofNat (Layer.sampleOfRow 16 _ _ / _) = _
      rw [sampleOfRow_sixteen, Depth.bytes, ← first, start, high, low]
      have lowLt := (picture.byte x y (2 * number)).toNat_lt
      have highLt := (picture.byte x y (2 * number + 1)).toNat_lt
      apply UInt8.toNat.inj
      rw [UInt8.toNat_ofNat']
      rcases Nat.mod_two_eq_zero_or_one place with isLow | isHigh
      · obtain rfl : place = 2 * number := by omega
        rw [isLow]
        show (_ / 1) % _ = _
        omega
      · obtain rfl : place = 2 * number + 1 := by omega
        rw [isHigh]
        show (_ / 256) % _ = _
        omega

/-- The picture of the rows that were stored for it. -/
theorem pictureOf_layerOf {picture : Picture} (wellFormed : picture.WellFormed) :
    pictureOf (headerOf picture) {} [layerOf picture] = picture := by
  have format := format_headerOf picture
  refine Picture.eq_of_byte (Picture.wellFormed_ofFn _ _ _ _) wellFormed rfl rfl format ?_
  intro x y place column row inside
  have number : place / picture.format.depth.bytes < picture.format.channels.count :=
    Nat.div_lt_of_lt_mul (by rw [Nat.mul_comm]; exact inside)
  refine (Picture.byte_ofFn _ column row (by rw [format]; exact inside)).trans ?_
  dsimp only
  rw [format, sample_headerOf picture _ number, sample_layerOf row, samples_headerOf]
  exact byte_of_sample y column inside

/-! ## Files -/

/-- A picture that has pixels, all of its bytes, and no more of them than are read. -/
structure Readable (picture : Picture) : Prop where
  wellFormed : picture.WellFormed
  widthPos : 0 < picture.width
  heightPos : 0 < picture.height
  bytesLe : picture.byteCount ≤ maxBytes

namespace Readable

variable {picture : Picture}

theorem rowBytes_le (readable : Readable picture) :
    picture.width * picture.format.pixelBytes ≤ maxBytes := by
  refine Nat.le_trans ?_ readable.bytesLe
  rw [Picture.byteCount, Nat.mul_right_comm]
  exact Nat.le_mul_of_pos_right _ readable.heightPos

theorem width_le (readable : Readable picture) : picture.width ≤ maxBytes :=
  Nat.le_trans (Nat.le_mul_of_pos_right _ picture.format.pixelBytes_pos) readable.rowBytes_le

theorem height_le (readable : Readable picture) : picture.height ≤ maxBytes := by
  refine Nat.le_trans ?_ readable.bytesLe
  rw [Picture.byteCount, Nat.mul_right_comm, Nat.mul_comm]
  exact Nat.le_mul_of_pos_right _
    (Nat.mul_pos readable.widthPos picture.format.pixelBytes_pos)

theorem header (readable : Readable picture) : (headerOf picture).WellFormed where
  widthPos := readable.widthPos
  width := Nat.lt_of_le_of_lt readable.width_le (by decide)
  heightPos := readable.heightPos
  height := Nat.lt_of_le_of_lt readable.height_le (by decide)
  depth := depth_headerOf picture

/-- The compressed rows fit into a chunk. -/
theorem length_compress_lt (readable : Readable picture) :
    (Zlib.compress (storedRows picture)).length < Nat.pow 256 4 := by
  have limit : maxBytes = 536870912 := rfl
  have space : Nat.pow 256 4 = 4294967296 := rfl
  have rows := length_storedRows picture
  have bytes := readable.bytesLe
  have heightLe := readable.height_le
  have blocks := Deflate.length_deflate_le (storedRows picture)
  rw [Picture.byteCount, Nat.mul_right_comm, Nat.mul_comm] at bytes
  rw [Nat.mul_add, Nat.mul_one] at rows
  simp only [Zlib.compress, List.length_append, List.length_cons, List.length_nil,
    BigEndian.length_bytes]
  omega

end Readable

/-- The bytes of the chunk of the pixels, and the end of the file. -/
def pixelsOf (picture : Picture) : List UInt8 :=
  (⟨Chunk.pixels, Zlib.compress (storedRows picture)⟩ : Chunk).bytes ++
    (⟨Chunk.closing, []⟩ : Chunk).bytes

theorem body_file (picture : Picture) :
    body (file picture) =
      .ok ((⟨Chunk.header, (headerOf picture).bytes⟩ : Chunk).bytes ++ pixelsOf picture) := by
  have parts : (chunksOf picture).flatMap Chunk.bytes =
      (⟨Chunk.header, (headerOf picture).bytes⟩ : Chunk).bytes ++ pixelsOf picture := by
    rw [chunksOf, pixelsOf, List.flatMap_cons, List.flatMap_cons, List.flatMap_singleton]
  have prefixed : signature.isPrefixOf (file picture) = true :=
    List.isPrefixOf_iff_prefix.mpr (List.prefix_append _ _)
  rw [body, if_pos prefixed, file, List.drop_left, parts]

/-- Nothing is said between the head and the pixels. -/
theorem read?_file {picture : Picture} (header : (headerOf picture).WellFormed) :
    Opening.read? ((⟨Chunk.header, (headerOf picture).bytes⟩ : Chunk).bytes ++ pixelsOf picture) =
      some ⟨headerOf picture, {}, pixelsOf picture⟩ := by
  have pixelsBegin : Preface.pixelsBegin? {} (pixelsOf picture) = some true := by
    rw [Preface.pixelsBegin?, pixelsOf, Chunk.kind?_bytes rfl]
    exact if_pos rfl
  have fits : (headerOf picture).bytes.length < Nat.pow 256 4 := by
    simp only [Header.bytes, List.length_append, BigEndian.length_bytes]
    exact Nat.lt_of_sub_eq_succ rfl
  rw [Opening.read?, Chunk.next?_bytes rfl fits]
  dsimp only
  rw [if_pos ⟨rfl, rfl⟩, Header.ofBytes?_bytes header]
  dsimp only
  rw [Preface.read?, pixelsBegin]

/-- The opening of a file is read as long as a row does not have too many bytes. -/
theorem opening?_file {picture : Picture} (header : (headerOf picture).WellFormed)
    (rowFits : picture.width * picture.format.pixelBytes ≤ maxBytes) :
    opening? ((⟨Chunk.header, (headerOf picture).bytes⟩ : Chunk).bytes ++ pixelsOf picture) =
      some ⟨headerOf picture, {}, pixelsOf picture⟩ := by
  have readFits : (headerOf picture).width *
      (Expansion.format (headerOf picture) {}).pixelBytes ≤ maxBytes := by
    rw [format_headerOf]
    exact rowFits
  rw [opening?, read?_file header]
  show (do guard _; return _ : Option Opening) = _
  rw [guard, if_pos readFits]
  rfl

/-- The opening of a file with rows that have too many bytes is not read. -/
theorem opening?_file_of_wide {picture : Picture} (header : (headerOf picture).WellFormed)
    (wide : maxBytes < picture.width * picture.format.pixelBytes) :
    opening? ((⟨Chunk.header, (headerOf picture).bytes⟩ : Chunk).bytes ++ pixelsOf picture) =
      none := by
  have refused : ¬ (headerOf picture).width *
      (Expansion.format (headerOf picture) {}).pixelBytes ≤ maxBytes := by
    rw [format_headerOf]
    exact Nat.not_le_of_gt wide
  rw [opening?, read?_file header]
  show (do guard _; return _ : Option Opening) = _
  rw [guard, if_neg refused]
  rfl

theorem parts?_file {picture : Picture} (readable : Readable picture) :
    Opening.parts? ⟨headerOf picture, {}, pixelsOf picture⟩ =
      some [Zlib.compress (storedRows picture)] := by
  have last : Chunk.pixelParts? Chunk.pixels 1 [Zlib.compress (storedRows picture)]
      ((⟨Chunk.closing, []⟩ : Chunk).bytes ++ []) = some [Zlib.compress (storedRows picture)] :=
    Chunk.pixelParts?_of_other 1 _ rfl (by decide) []
  rw [List.append_nil] at last
  rw [Opening.parts?, pixelsOf, Chunk.kind?_bytes rfl]
  dsimp only
  rw [Chunk.pixelParts?_of_pixels _ _ readable.length_compress_lt]
  exact last

theorem decode_of_body {bytes rest : List UInt8} (found : body bytes = .ok rest) :
    decode bytes =
      match (opening? rest).bind picture? with
      | some picture => .ok picture
      | none => .error .damaged := by
  rw [decode, found]
  rfl

/-- A file gives back the picture that was written into it. -/
theorem decode_file {picture : Picture} (readable : Readable picture) :
    decode (file picture) = .ok picture := by
  have known : (headerOf picture).color ≠ .indexed := by
    obtain ⟨_, _, ⟨channels, _⟩, _⟩ := picture
    cases channels <;> exact ColorType.noConfusion
  have fits : (headerOf picture).width * (headerOf picture).height *
      (Expansion.format (headerOf picture) {}).pixelBytes ≤ maxBytes := by
    rw [format_headerOf]
    exact readable.bytesLe
  have read : picture? ⟨headerOf picture, {}, pixelsOf picture⟩ = some picture := by
    rw [picture?]
    dsimp only
    rw [parts?_file readable, guard, if_pos (Or.inl known), guard, if_pos fits]
    show (do
      let stored ← Zlib.decompress? (storedBytes (headerOf picture))
        [Zlib.compress (storedRows picture)]
      let layers ← Layer.read? (headerOf picture) (Pass.ofHeader (headerOf picture)) stored.toList
      return pictureOf (headerOf picture) {} layers : Option Picture) = _
    rw [storedBytes_headerOf readable.widthPos, Zlib.decompress?_compress]
    show (do
      let layers ← Layer.read? (headerOf picture) (Pass.ofHeader (headerOf picture))
        (storedRows picture)
      return pictureOf (headerOf picture) {} layers : Option Picture) = _
    rw [read?_storedRows readable.widthPos]
    show some (pictureOf (headerOf picture) {} [layerOf picture]) = _
    rw [pictureOf_layerOf readable.wellFormed]
  rw [decode_of_body (body_file picture), opening?_file readable.header readable.rowBytes_le,
    Option.bind_some, read]

/-! ## Pictures that are too large -/

/-- Pixels that have too many bytes are not read. -/
theorem picture?_of_large {opening : Opening}
    (large : maxBytes < opening.header.width * opening.header.height *
      (Expansion.format opening.header opening.preface.colors).pixelBytes) :
    picture? opening = none := by
  have refused := Nat.not_le_of_gt large
  simp [picture?, guard, refused]

/-- The file of a picture that has too many bytes counts as damaged. -/
theorem decode_file_of_large {picture : Picture} (header : (headerOf picture).WellFormed)
    (large : maxBytes < picture.byteCount) : decode (file picture) = .error .damaged := by
  have refused : picture? ⟨headerOf picture, {}, pixelsOf picture⟩ = none := by
    apply picture?_of_large
    rw [format_headerOf]
    exact large
  rw [decode_of_body (body_file picture)]
  by_cases rowFits : picture.width * picture.format.pixelBytes ≤ maxBytes
  · rw [opening?_file header rowFits, Option.bind_some, refused]
  · rw [opening?_file_of_wide header (Nat.lt_of_not_le rowFits), Option.bind_none]

/-! ## Pictures that are restored -/

/-- A picture that has pixels, and all its bytes, can be written. -/
theorem encode_eq_ok {picture : Picture} (wellFormed : picture.WellFormed)
    (widthPos : 0 < picture.width) (heightPos : 0 < picture.height)
    (countable : picture.byteCount < 0x10000000000000000) :
    encode picture = .ok (file picture) := by
  have needed : picture.bytes.size = neededBytes picture :=
    wellFormed.trans (Nat.mod_eq_of_lt countable).symm
  rw [encode, if_neg (by omega), if_neg (not_not_intro needed), write, if_pos wellFormed]

theorem Readable.encode {picture : Picture} (readable : Readable picture) :
    encode picture = .ok (file picture) :=
  encode_eq_ok readable.wellFormed readable.widthPos readable.heightPos
    (Nat.lt_of_le_of_lt readable.bytesLe (by decide))

/-- A turned picture can be read if the picture can. -/
theorem Readable.turn {picture : Picture} (readable : Readable picture) (turn : Turn) :
    Readable (picture.turn turn) where
  wellFormed := readable.wellFormed.turn turn
  widthPos := by
    rw [Picture.width_turn]
    cases turn with
    | upright | half => exact readable.widthPos
    | left | right => exact readable.heightPos
  heightPos := by
    rw [Picture.height_turn]
    cases turn with
    | upright | half => exact readable.heightPos
    | left | right => exact readable.widthPos
  bytesLe := by
    rw [Picture.byteCount_turn]
    exact readable.bytesLe

end LabelPress.Png
