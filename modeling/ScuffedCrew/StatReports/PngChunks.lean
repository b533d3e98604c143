import ScuffedCrew.StatReports.Png

/-!
# The chunks of a PNG

A chunk is read where the input goes on with the encoding of one, and nothing
else is read as a chunk.  The loop of the filter therefore runs over the chunks
that the input is made of.
-/

namespace ScuffedCrew.StatReports

open Rust

/-! ## Chunks -/

structure Chunk where
  ctype : Bytes
  data : Bytes
  four : ctype.length = 4
  short : data.length < 2 ^ 32

namespace Chunk

variable (chunk : Chunk)

def checked : Bytes := chunk.ctype ++ chunk.data

def encode : Bytes :=
  toBeBytes chunk.data.length ++ (chunk.checked ++ toBeBytes (crc32 chunk.checked).toNat)

theorem length_encode : chunk.encode.length = 12 + chunk.data.length := by
  simp only [encode, checked, toBeBytes, List.length_append, List.length_cons, List.length_nil,
    chunk.four]
  omega

end Chunk

def encodeAll (chunks : List Chunk) : Bytes := chunks.flatMap Chunk.encode

/-- What the loop makes of a whole chunk. -/
def advance (scan : Scan) (chunk : Chunk) : Except Fault Scan :=
  if scan.sawIend then reject "bytes after iend"
  else if maxChunks < scan.chunks + 1 then reject "too many png chunks"
  else if !chunk.ctype.all isAsciiAlphabetic then reject "png chunk type is not letters"
  else
    (inspect { scan with chunks := scan.chunks + 1 } chunk.ctype chunk.data).map fun
      | (keep, scan) => { scan with
          idatFinished := scan.idatFinished || (decide (chunk.ctype ≠ typeIdat) && scan.sawIdat)
          out := if keep then scan.out ++ chunk.encode else scan.out }

section rejects

open Checked

/-- Thirteen bytes are the fields of a header. -/
theorem exists_fields {data : Bytes} (long : data.length = 13) :
    ∃ width height bitDepth colorType compression filter interlace,
      width < 2 ^ 32 ∧ height < 2 ^ 32 ∧
      data = toBeBytes width ++ toBeBytes height ++
        [bitDepth, colorType, compression, filter, interlace] ∧
      ∀ scan, inspectIhdr scan data =
        if scan.sawIhdr || decide (scan.chunks ≠ 1) then reject "bad ihdr"
        else checkIhdr scan width height bitDepth colorType compression filter interlace := by
  rcases exists_readU32 data 0 (by omega) with ⟨width, width_lt, width_read, width_bytes⟩
  rcases exists_readU32 data 4 (by omega) with ⟨height, height_lt, height_read, height_bytes⟩
  have last_read : ∃ bitDepth colorType compression filter interlace,
      data.drop 8 = [bitDepth, colorType, compression, filter, interlace] := by
    have five : (data.drop 8).length = 5 := by
      rw [List.length_drop]
      omega
    rcases List.exists_of_length_succ _ five with ⟨bitDepth, fields, split⟩
    rw [split, List.length_cons, Nat.add_right_cancel_iff] at five
    rcases List.length_eq_four.mp five with ⟨colorType, compression, filter, interlace, rfl⟩
    exact ⟨bitDepth, colorType, compression, filter, interlace, split⟩
  rcases last_read with ⟨bitDepth, colorType, compression, filter, interlace, last⟩
  have byte (index : ℕ) : data[8 + index]? =
      [bitDepth, colorType, compression, filter, interlace][index]? := by
    rw [← last, List.getElem?_drop]
  refine ⟨width, height, bitDepth, colorType, compression, filter, interlace, width_lt, height_lt,
    ?_, ?_⟩
  · have halves : data.drop 8 = (data.drop 4).drop 4 := by rw [List.drop_drop]
    rw [← width_bytes, ← height_bytes, ← last, List.drop_zero, List.append_assoc, halves,
      List.take_append_drop, List.take_append_drop]
  · intro scan
    simp only [inspectIhdr, long, ne_eq, not_true_eq_false, decide_false, Bool.or_false, width_read,
      height_read, Checked.ok_bind, byteAt, byte 0, byte 1, byte 2, byte 3, byte 4]
    rfl

theorem onlyRejects_inspectIhdr (scan : Scan) (data : Bytes) :
    OnlyRejects (inspectIhdr scan data) := by
  by_cases long : data.length = 13
  · rcases exists_fields long with ⟨_, _, _, _, _, _, _, -, -, -, reads⟩
    simp [reads, checkIhdr]
  · simp [inspectIhdr, long]

theorem onlyRejects_inspect (scan : Scan) (ctype data : Bytes) :
    OnlyRejects (inspect scan ctype data) := by
  have ihdr := onlyRejects_map (true, ·) (onlyRejects_inspectIhdr scan data)
  have plte : OnlyRejects (inspectPlte scan data) := by simp [inspectPlte]
  have idat : OnlyRejects (inspectIdat scan data) := by simp [inspectIdat]
  have iend : OnlyRejects (inspectIend scan data) := by simp [inspectIend]
  simp [inspect, ihdr, onlyRejects_map _ plte, onlyRejects_map _ idat, onlyRejects_map _ iend]

theorem onlyRejects_advance (scan : Scan) (chunk : Chunk) : OnlyRejects (advance scan chunk) := by
  simp [advance, onlyRejects_map _ (onlyRejects_inspect _ _ _)]

end rejects

section reading

variable {input rest : Bytes} {i : ℕ} {scan : Scan}

/-- The slices of the loop are the parts of a whole chunk. -/
theorem read_encode {chunk : Chunk} (inside : i ≤ input.length)
    (split : input.drop i = chunk.encode ++ rest) :
    readU32 input i = .ok chunk.data.length ∧
      slice input (i + 4) (i + 8) = .ok chunk.ctype ∧
      slice input (i + 8) (i + 8 + chunk.data.length) = .ok chunk.data ∧
      readU32 input (i + 8 + chunk.data.length) = .ok (crc32 chunk.checked).toNat ∧
      slice input (i + 4) (i + 8 + chunk.data.length) = .ok chunk.checked ∧
      slice input i (i + 12 + chunk.data.length) = .ok chunk.encode := by
  have whole : input = input.take i ++ (chunk.encode ++ rest) := by
    rw [← split, List.take_append_drop]
  have at_i : i = (input.take i).length := by
    rw [List.length_take]
    omega
  have four := chunk.four
  have length_bytes : (toBeBytes chunk.data.length).length = 4 := rfl
  refine ⟨?_, ?_, ?_, ?_, ?_, ?_⟩
  · apply readU32_of_append (input.take i) (chunk.checked ++ (toBeBytes (crc32 chunk.checked).toNat
      ++ rest)) chunk.short _ at_i
    simpa [Chunk.encode] using whole
  · apply slice_of_append (input.take i ++ toBeBytes chunk.data.length)
      (chunk.data ++ (toBeBytes (crc32 chunk.checked).toNat ++ rest))
    · simpa [Chunk.encode, Chunk.checked] using whole
    · rw [List.length_append, ← at_i, length_bytes]
    · rw [four]
  · apply slice_of_append (input.take i ++ (toBeBytes chunk.data.length ++ chunk.ctype))
      (toBeBytes (crc32 chunk.checked).toNat ++ rest)
    · simpa [Chunk.encode, Chunk.checked] using whole
    · rw [List.length_append, List.length_append, ← at_i, length_bytes, four]
    · rfl
  · apply readU32_of_append (input.take i ++ (toBeBytes chunk.data.length ++ chunk.checked)) rest
      (crc32 chunk.checked).toNat_lt
    · simpa [Chunk.encode] using whole
    · rw [List.length_append, List.length_append, ← at_i, length_bytes, Chunk.checked,
        List.length_append, four]
      omega
  · apply slice_of_append (input.take i ++ toBeBytes chunk.data.length)
      (toBeBytes (crc32 chunk.checked).toNat ++ rest)
    · simpa [Chunk.encode] using whole
    · rw [List.length_append, ← at_i, length_bytes]
    · rw [Chunk.checked, List.length_append, four]
      omega
  · apply slice_of_append (input.take i) rest whole at_i
    rw [chunk.length_encode]
    omega

theorem scanChunk_of_encode {chunk : Chunk} (inside : i ≤ input.length)
    (split : input.drop i = chunk.encode ++ rest) :
    scanChunk input i scan = (advance scan chunk).map (·, i + chunk.encode.length) := by
  have long : input.length = i + (12 + chunk.data.length) + rest.length := by
    have lengths := congrArg List.length split
    rw [List.length_drop, List.length_append, chunk.length_encode] at lengths
    omega
  have header_inside : ¬input.length < i + 12 := by omega
  have chunk_inside : ¬(input.length < chunk.data.length ∨
      input.length < i + 12 + chunk.data.length) := by omega
  rcases read_encode inside split with ⟨len, ctype, data, crc, checked, whole⟩
  have next : i + 12 + chunk.data.length = i + chunk.encode.length := by
    rw [chunk.length_encode]
    omega
  unfold scanChunk advance
  split
  next => rfl
  next =>
    simp only [if_false, len, chunk_inside, Checked.ok_bind]
    split
    next => rfl
    next =>
      simp only [ctype, data, crc, checked, Checked.ok_bind, ne_eq, not_true_eq_false, if_false]
      split
      next => rfl
      next =>
        cases inspect { scan with chunks := scan.chunks + 1 } chunk.ctype chunk.data with
        | error fault => rfl
        | ok found =>
            rw [next] at whole
            simp only [Checked.ok_bind, next, whole]
            rfl

/-- Where no whole chunk is, the loop rejects the input. -/
theorem exists_encode_or_reject (input : Bytes) (i : ℕ) (scan : Scan) :
    (∃ (chunk : Chunk) (rest : Bytes), input.drop i = chunk.encode ++ rest) ∨
      ∃ message, scanChunk input i scan = .error (.rejected message) := by
  unfold scanChunk
  split
  next => exact .inr ⟨_, rfl⟩
  next =>
    split
    next => exact .inr ⟨_, rfl⟩
    next header_inside =>
      rcases exists_readU32 input i (by omega) with
        ⟨len, len_lt, len_read, len_bytes⟩
      simp only [len_read, Checked.ok_bind]
      split
      next => exact .inr ⟨_, rfl⟩
      next chunk_inside =>
        split
        next => exact .inr ⟨_, rfl⟩
        next =>
          rcases exists_readU32 input (i + 8 + len) (by omega) with
            ⟨crc, crc_lt, crc_read, crc_bytes⟩
          rw [slice_of_le input (i + 4) (i + 8) (by omega) (by omega),
            slice_of_le input (i + 8) (i + 8 + len) (by omega) (by omega), crc_read,
            slice_of_le input (i + 4) (i + 8 + len) (by omega) (by omega)]
          simp only [Checked.ok_bind]
          split
          next => exact .inr ⟨_, rfl⟩
          next matched =>
            left
            rw [ne_eq, not_not] at matched
            have four : ((input.drop (i + 4)).take 4).length = 4 := by
              rw [List.length_take, List.length_drop]
              omega
            have data_length : ((input.drop (i + 8)).take len).length = len := by
              rw [List.length_take, List.length_drop]
              omega
            have parts : (input.drop (i + 4)).take (i + 8 + len - (i + 4)) =
                (input.drop (i + 4)).take 4 ++ (input.drop (i + 8)).take len := by
              rw [show i + 8 + len - (i + 4) = 4 + len by omega, List.take_add, List.drop_drop]
            have cut (low count : ℕ) : (input.drop low).take count ++ input.drop (low + count) =
                input.drop low := by
              rw [← List.drop_drop, List.take_append_drop]
            have whole : (input.drop i).take 4 ++ ((input.drop (i + 4)).take 4 ++
                ((input.drop (i + 8)).take len ++ ((input.drop (i + 8 + len)).take 4 ++
                  input.drop (i + 8 + len + 4)))) = input.drop i := by
              rw [cut (i + 8 + len) 4, cut (i + 8) len, cut (i + 4) 4, cut i 4]
            refine ⟨⟨_, _, four, data_length.trans_lt len_lt⟩, input.drop (i + 8 + len + 4), ?_⟩
            simp only [Chunk.encode, Chunk.checked]
            rw [← parts, ← matched, ← crc_bytes, data_length, ← len_bytes, parts]
            simp only [List.append_assoc]
            exact whole.symm

theorem drop_next {chunk : Chunk} (split : input.drop i = chunk.encode ++ rest) :
    input.drop (i + chunk.encode.length) = rest := by
  rw [← List.drop_drop, split, List.drop_left]

end reading

/-! ## The loop -/

def advanceAll (scan : Scan) (chunks : List Chunk) : Except Fault Scan :=
  chunks.foldlM advance scan

theorem scanChunks_of_encodeAll {input : Bytes} {chunks : List Chunk} {fuel i : ℕ} {scan : Scan}
    (inside : i ≤ input.length) (split : input.drop i = encodeAll chunks)
    (fueled : input.length < i + fuel) :
    scanChunks input fuel i scan = advanceAll scan chunks := by
  induction chunks generalizing fuel i scan with
  | nil =>
      cases fuel with
      | zero => omega
      | succ fuel =>
          have at_end : ¬i < input.length := by
            have empty := List.drop_eq_nil_iff.mp split
            omega
          simp only [scanChunks, at_end, if_false]
          rfl
  | cons chunk chunks ih =>
      cases fuel with
      | zero => omega
      | succ fuel =>
          have split : input.drop i = chunk.encode ++ encodeAll chunks := split
          have long := congrArg List.length split
          rw [List.length_drop, List.length_append] at long
          have more := chunk.length_encode
          have not_end : i < input.length := by omega
          simp only [scanChunks, not_end, if_true, scanChunk_of_encode inside split]
          rw [advanceAll, List.foldlM_cons]
          cases advance scan chunk with
          | error fault => rfl
          | ok after =>
              have next_inside : i + chunk.encode.length ≤ input.length := by omega
              have next_fueled : input.length < i + chunk.encode.length + fuel := by omega
              exact ih next_inside (drop_next split) next_fueled

/-- A run of the loop goes over whole chunks to the end, or it rejects the input. -/
theorem scanChunks_cases {input : Bytes} {fuel i : ℕ} (scan : Scan) (inside : i ≤ input.length)
    (fueled : input.length < i + fuel) :
    (∃ chunks, input.drop i = encodeAll chunks) ∨
      ∃ message, scanChunks input fuel i scan = .error (.rejected message) := by
  induction fuel generalizing i scan with
  | zero => omega
  | succ fuel ih =>
      simp only [scanChunks]
      split
      next not_end =>
        rcases exists_encode_or_reject input i scan with
          ⟨chunk, rest, split⟩ | ⟨message, rejects⟩
        · have long := congrArg List.length split
          rw [List.length_drop, List.length_append] at long
          have more := chunk.length_encode
          rw [scanChunk_of_encode inside split]
          cases advanced : advance scan chunk with
          | error fault =>
              rcases onlyRejects_advance scan chunk fault advanced with ⟨message, rfl⟩
              exact .inr ⟨message, rfl⟩
          | ok after =>
              have next_inside : i + chunk.encode.length ≤ input.length := by omega
              have next_fueled : input.length < i + chunk.encode.length + fuel := by omega
              rcases @ih _ after next_inside next_fueled with ⟨chunks, rest_split⟩ | rejects
              · left
                refine ⟨chunk :: chunks, ?_⟩
                rw [split, ← drop_next split, rest_split]
                rfl
              · exact .inr rejects
        · right
          rw [rejects]
          exact ⟨message, rfl⟩
      next at_end =>
        left
        exact ⟨[], List.drop_eq_nil_iff.mpr (by omega)⟩

end ScuffedCrew.StatReports
