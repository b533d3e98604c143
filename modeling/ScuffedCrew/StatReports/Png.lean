import Mathlib.Algebra.Order.Ring.Nat
import Mathlib.Data.List.Basic
import Mathlib.Logic.Function.Iterate
import ScuffedCrew.Rust.Checked

/-!
# The PNG filter

`prepare_png`, with every index it takes checked: an index past the end ends a
run in `outOfRange`, and a loop that does not stop in `outOfFuel`.  The zlib
decoder is a parameter.
-/

namespace ScuffedCrew.StatReports

open Rust

def pngMagic : Bytes := [0x89, 0x50, 0x4E, 0x47, 0x0D, 0x0A, 0x1A, 0x0A]

def jpegMagic : Bytes := [0xFF, 0xD8, 0xFF]

def maxDecodedBytes : ℕ := 160 * 1024 * 1024

def maxChunks : ℕ := 64

def maxBundleBytes : ℕ := 10 * 1024 * 1024

def maxImageEdge : ℕ := 7680

def typeIhdr : Bytes := [0x49, 0x48, 0x44, 0x52]

def typePlte : Bytes := [0x50, 0x4C, 0x54, 0x45]

def typeIdat : Bytes := [0x49, 0x44, 0x41, 0x54]

def typeIend : Bytes := [0x49, 0x45, 0x4E, 0x44]

/-! ## The checksum -/

def crcBit (crc : UInt32) : UInt32 := (crc >>> 1) ^^^ (0xEDB88320 &&& (0 - (crc &&& 1)))

def crcByte (crc : UInt32) (byte : UInt8) : UInt32 := crcBit^[8] (crc ^^^ byte.toUInt32)

def crc32 (data : Bytes) : UInt32 := ~~~(data.foldl crcByte 0xFFFFFFFF)

/-! ## The image data -/

/-- A decoder of a compressed stream: the count that each of its reads returns,
or an error, and how much of the stream it has taken when a read returns nothing. -/
structure ZlibDecoder where
  read : Bytes → ℕ → Option ℕ
  totalIn : Bytes → ℕ

def inflateLoop (zlib : ZlibDecoder) (idat : Bytes) (expected : ℕ) :
    ℕ → ℕ → ℕ → Except Fault ℕ
  | 0, _, _ => .error .outOfFuel
  | fuel + 1, reads, total =>
      match zlib.read idat reads with
      | none => reject "png idat is not valid zlib"
      | some count =>
          if count = 0 then .ok total
          else if expected < total + count then reject "png idat inflates past the image size"
          else inflateLoop zlib idat expected fuel (reads + 1) (total + count)

def inflateExact (zlib : ZlibDecoder) (idat : Bytes) (expected : ℕ) : Except Fault Unit :=
  match inflateLoop zlib idat expected (expected + 2) 0 0 with
  | .error fault => .error fault
  | .ok total =>
      if total ≠ expected then reject "png idat does not match the image size"
      else if zlib.totalIn idat ≠ idat.length then reject "png has bytes after the image data"
      else .ok ()

/-! ## The chunks -/

@[ext]
structure Scan where
  out : Bytes
  sawIhdr : Bool
  sawIdat : Bool
  idatFinished : Bool
  sawIend : Bool
  sawPlte : Bool
  chunks : ℕ
  width : ℕ
  height : ℕ
  colorType : UInt8
  idat : Bytes

def Scan.start : Scan := ⟨pngMagic, false, false, false, false, false, 0, 0, 0, 0, []⟩

def isAncillary (ctype : Bytes) : Bool := ctype.head?.any isAsciiLowercase

/-- The checks of the header's fields. -/
def checkIhdr (scan : Scan) (width height : ℕ)
    (bitDepth colorType compression filter interlace : UInt8) : Except Fault Scan :=
  if width = 0 ∨ height = 0 ∨ maxImageEdge < width ∨ maxImageEdge < height then
    reject "image edge is out of range"
  else if bitDepth ≠ 8 then reject "png bit depth must be 8"
  else if colorType ≠ 2 ∧ colorType ≠ 6 ∧ colorType ≠ 3 then
    reject "png color type must be rgb, rgba, or palette"
  else if compression ≠ 0 ∨ filter ≠ 0 ∨ interlace ≠ 0 then
    reject "png compression, filter, or interlace is not allowed"
  else .ok { scan with sawIhdr := true, width, height, colorType }

def inspectIhdr (scan : Scan) (data : Bytes) : Except Fault Scan :=
  if scan.sawIhdr || decide (scan.chunks ≠ 1) || decide (data.length ≠ 13) then reject "bad ihdr"
  else do
    let width ← readU32 data 0
    let height ← readU32 data 4
    let bitDepth ← byteAt data 8
    let colorType ← byteAt data 9
    let compression ← byteAt data 10
    let filter ← byteAt data 11
    let interlace ← byteAt data 12
    checkIhdr scan width height bitDepth colorType compression filter interlace

def inspectPlte (scan : Scan) (data : Bytes) : Except Fault Scan :=
  if decide (scan.colorType ≠ 3) || scan.sawIdat || scan.sawPlte || decide (data.length = 0) ||
      decide (data.length % 3 ≠ 0) || decide (256 * 3 < data.length) then
    reject "plte is only allowed on a palette image"
  else .ok { scan with sawPlte := true }

def inspectIdat (scan : Scan) (data : Bytes) : Except Fault Scan :=
  if !scan.sawIhdr || scan.idatFinished || decide (data.length = 0) then reject "bad idat"
  else if decide (scan.colorType = 3) && !scan.sawPlte then
    reject "palette image is missing plte"
  else if maxBundleBytes < (scan.idat ++ data).length then reject "idat is too large"
  else .ok { scan with sawIdat := true, idat := scan.idat ++ data }

def inspectIend (scan : Scan) (data : Bytes) : Except Fault Scan :=
  if !scan.sawIdat || decide (data.length ≠ 0) then reject "bad iend"
  else .ok { scan with sawIend := true }

/-- Whether the chunk is kept, and the flags after it. -/
def inspect (scan : Scan) (ctype data : Bytes) : Except Fault (Bool × Scan) :=
  if ctype = typeIhdr then (inspectIhdr scan data).map (true, ·)
  else if ctype = typePlte then (inspectPlte scan data).map (true, ·)
  else if ctype = typeIdat then (inspectIdat scan data).map (true, ·)
  else if ctype = typeIend then (inspectIend scan data).map (true, ·)
  else if isAncillary ctype then
    .ok (false, if scan.sawIdat && !scan.idatFinished then { scan with idatFinished := true }
      else scan)
  else reject "png has a critical chunk that is not allowed"

/-- One turn of the loop at index `i`: the state and the index after it. -/
def scanChunk (input : Bytes) (i : ℕ) (scan : Scan) : Except Fault (Scan × ℕ) :=
  if scan.sawIend then reject "bytes after iend"
  else if input.length < i + 12 then reject "truncated png chunk"
  else do
    let len ← readU32 input i
    if input.length < len ∨ input.length < i + 12 + len then reject "truncated png chunk"
    else if maxChunks < scan.chunks + 1 then reject "too many png chunks"
    else do
      let ctype ← slice input (i + 4) (i + 8)
      let data ← slice input (i + 8) (i + 8 + len)
      let crcGot ← readU32 input (i + 8 + len)
      let checked ← slice input (i + 4) (i + 8 + len)
      if crcGot ≠ (crc32 checked).toNat then reject "png chunk crc mismatch"
      else if !ctype.all isAsciiAlphabetic then reject "png chunk type is not letters"
      else do
        let (keep, scan) ← inspect { scan with chunks := scan.chunks + 1 } ctype data
        let chunk ← slice input i (i + 12 + len)
        return ({ scan with
          idatFinished := scan.idatFinished || (decide (ctype ≠ typeIdat) && scan.sawIdat)
          out := if keep then scan.out ++ chunk else scan.out }, i + 12 + len)

def scanChunks (input : Bytes) : ℕ → ℕ → Scan → Except Fault Scan
  | 0, _, _ => .error .outOfFuel
  | fuel + 1, i, scan =>
      if i < input.length then do
        let (scan, next) ← scanChunk input i scan
        scanChunks input fuel next scan
      else .ok scan

/-- Bytes of a pixel. -/
def bytesPerPixel (colorType : UInt8) : Except Fault ℕ :=
  if colorType = 2 then .ok 3
  else if colorType = 6 then .ok 4
  else if colorType = 3 then .ok 1
  else reject "png color type must be rgb, rgba, or palette"

def preparePng (zlib : ZlibDecoder) (input : Bytes) : Except Fault Bytes :=
  if jpegMagic.isPrefixOf input then reject "jpeg is not allowed"
  else if input.length < 8 then reject "not a png"
  else do
    let magic ← slice input 0 8
    if magic ≠ pngMagic then reject "not a png"
    else do
      let scan ← scanChunks input (input.length + 1) 8 .start
      if !scan.sawIend then reject "png is missing iend"
      else do
        let bpp ← bytesPerPixel scan.colorType
        let expected := scan.height * (1 + scan.width * bpp)
        if expected = 0 ∨ maxDecodedBytes < expected then reject "decoded image is too large"
        else do
          inflateExact zlib scan.idat expected
          return scan.out

end ScuffedCrew.StatReports
