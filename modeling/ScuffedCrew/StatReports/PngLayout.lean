import ScuffedCrew.StatReports.PngChunks

/-!
# What the filter accepts

The chunks of an accepted PNG have one layout: the header, palette and
ancillary chunks, the image data, ancillary chunks and the end.  The flags of
the loop say how far the layout has been read.  Without its ancillary chunks a
PNG has a layout of the same kind, so that the filter leaves its own output as
it is.
-/

namespace ScuffedCrew.StatReports

open Rust

/-! ## Kinds of chunks -/

namespace Chunk

variable (chunk : Chunk)

def ancillary : Bool := isAncillary chunk.ctype && chunk.ctype.all isAsciiAlphabetic

def palette : Bool :=
  decide (chunk.ctype = typePlte) && decide (chunk.data.length ≠ 0) &&
    decide (chunk.data.length % 3 = 0) && decide (chunk.data.length ≤ 256 * 3)

def image : Bool := decide (chunk.ctype = typeIdat) && decide (chunk.data.length ≠ 0)

/-- The chunks that the filter keeps. -/
def kept : Bool :=
  decide (chunk.ctype = typeIhdr) || decide (chunk.ctype = typePlte) ||
    decide (chunk.ctype = typeIdat) || decide (chunk.ctype = typeIend)

variable {chunk}

theorem ctype_of_palette (palette : chunk.palette = true) : chunk.ctype = typePlte := by
  simp only [Chunk.palette, Bool.and_eq_true, decide_eq_true_eq] at palette
  exact palette.1.1.1

theorem ctype_of_image (image : chunk.image = true) : chunk.ctype = typeIdat := by
  simp only [Chunk.image, Bool.and_eq_true, decide_eq_true_eq] at image
  exact image.1

/-- The type of an ancillary chunk begins with a small letter. -/
theorem kept_of_ancillary (ancillary : chunk.ancillary = true) : chunk.kept = false := by
  rw [Chunk.ancillary, Bool.and_eq_true] at ancillary
  by_contra kept
  rw [Bool.not_eq_false] at kept
  simp only [Chunk.kept, Bool.or_eq_true, decide_eq_true_eq] at kept
  rcases kept with ((is_type | is_type) | is_type) | is_type
  all_goals
    rw [is_type] at ancillary
    exact absurd ancillary.1 (by decide)

theorem palette_of_ancillary (ancillary : chunk.ancillary = true) : chunk.palette = false := by
  by_contra other
  have palette : chunk.palette = true := by simpa using other
  have unkept := kept_of_ancillary ancillary
  simp [Chunk.kept, ctype_of_palette palette] at unkept

end Chunk

/-! ## Layouts -/

/-- The chunks of a PNG up to some point. -/
structure Layout where
  width : ℕ
  height : ℕ
  colorType : UInt8
  before : List Chunk
  images : List Chunk
  after : List Chunk
  ended : Bool
  width_range : 0 < width ∧ width ≤ maxImageEdge
  height_range : 0 < height ∧ height ≤ maxImageEdge
  color_known : colorType = 2 ∨ colorType = 6 ∨ colorType = 3
  before_kinds : ∀ chunk ∈ before, chunk.ancillary = true ∨ chunk.palette = true
  palette_once : before.countP Chunk.palette ≤ 1
  palette_used : 0 < before.countP Chunk.palette → colorType = 3
  palette_there : colorType = 3 → images ≠ [] → 0 < before.countP Chunk.palette
  images_kinds : ∀ chunk ∈ images, chunk.image = true
  after_kinds : ∀ chunk ∈ after, chunk.ancillary = true
  in_order : images = [] → after = [] ∧ ended = false

def iend : Chunk := ⟨typeIend, [], rfl, by decide⟩

namespace Layout

variable (layout : Layout)

theorem length_typeIhdr : typeIhdr.length = 4 := rfl

theorem length_ihdr_lt :
    (toBeBytes layout.width ++ toBeBytes layout.height ++
      [8, layout.colorType, 0, 0, 0]).length < 2 ^ 32 := by
  simp only [toBeBytes, List.length_append, List.length_cons, List.length_nil]
  omega

def ihdr : Chunk where
  ctype := typeIhdr
  data := toBeBytes layout.width ++ toBeBytes layout.height ++ [8, layout.colorType, 0, 0, 0]
  four := length_typeIhdr
  short := layout.length_ihdr_lt

def chunks : List Chunk :=
  layout.ihdr :: (layout.before ++ layout.images ++ layout.after ++ if layout.ended then [iend] else [])

def imageData : Bytes := layout.images.flatMap Chunk.data

/-- The flags of the loop after the chunks. -/
def scan : Scan where
  out := pngMagic ++ encodeAll (layout.chunks.filter Chunk.kept)
  sawIhdr := true
  sawIdat := !layout.images.isEmpty
  idatFinished := !layout.after.isEmpty || layout.ended
  sawIend := layout.ended
  sawPlte := decide (0 < layout.before.countP Chunk.palette)
  chunks := layout.chunks.length
  width := layout.width
  height := layout.height
  colorType := layout.colorType
  idat := layout.imageData

/-- The limits on what is read. -/
structure Fits : Prop where
  few_chunks : layout.chunks.length ≤ maxChunks
  small_data : layout.imageData.length ≤ maxBundleBytes

/-! ### Reading on -/

def addBefore (chunk : Chunk) (unread : layout.images = [])
    (kind : chunk.ancillary = true ∨ chunk.palette = true)
    (first : chunk.palette = true → layout.before.countP Chunk.palette = 0 ∧ layout.colorType = 3) :
    Layout :=
  { layout with
    before := layout.before ++ [chunk]
    before_kinds := by
      intro other other_mem
      rcases List.mem_append.mp other_mem with earlier | last
      · exact layout.before_kinds other earlier
      · rcases List.mem_singleton.mp last with rfl
        exact kind
    palette_once := by
      rw [List.countP_append, List.countP_singleton]
      have once := layout.palette_once
      split
      next palette =>
        have := (first palette).1
        omega
      next => omega
    palette_used := by
      intro used
      rw [List.countP_append, List.countP_singleton] at used
      split at used
      next palette => exact (first palette).2
      next => exact layout.palette_used (by omega)
    palette_there := fun _ read => absurd unread read }

def addImage (chunk : Chunk) (next : layout.after = []) (going : layout.ended = false)
    (image : chunk.image = true)
    (there : layout.colorType = 3 → 0 < layout.before.countP Chunk.palette) : Layout :=
  { layout with
    images := layout.images ++ [chunk]
    palette_there := fun is_palette _ => there is_palette
    images_kinds := by
      intro other other_mem
      rcases List.mem_append.mp other_mem with earlier | last
      · exact layout.images_kinds other earlier
      · rcases List.mem_singleton.mp last with rfl
        exact image
    in_order := fun _ => ⟨next, going⟩ }

def addAfter (chunk : Chunk) (read : layout.images ≠ []) (ancillary : chunk.ancillary = true) :
    Layout :=
  { layout with
    after := layout.after ++ [chunk]
    after_kinds := by
      intro other other_mem
      rcases List.mem_append.mp other_mem with earlier | last
      · exact layout.after_kinds other earlier
      · rcases List.mem_singleton.mp last with rfl
        exact ancillary
    in_order := fun unread => absurd unread read }

def finish (read : layout.images ≠ []) : Layout :=
  { layout with
    ended := true
    in_order := fun unread => absurd unread read }

end Layout

/-! ## One turn -/

section advance

variable {scan : Scan} {chunk : Chunk}

theorem advance_of_inspect {keep : Bool} {inspected : Scan} (going : scan.sawIend = false)
    (room : scan.chunks + 1 ≤ maxChunks) (letters : chunk.ctype.all isAsciiAlphabetic = true)
    (found : inspect { scan with chunks := scan.chunks + 1 } chunk.ctype chunk.data =
      .ok (keep, inspected)) :
    advance scan chunk = .ok { inspected with
      idatFinished := inspected.idatFinished ||
        (decide (chunk.ctype ≠ typeIdat) && inspected.sawIdat)
      out := if keep then inspected.out ++ chunk.encode else inspected.out } := by
  have room : ¬maxChunks < scan.chunks + 1 := by omega
  unfold advance
  rw [if_neg (by simp [going]), if_neg room, if_neg (by simp [letters]), found]
  rfl

theorem inspect_of_advance {after : Scan} (advanced : advance scan chunk = .ok after) :
    scan.sawIend = false ∧ scan.chunks + 1 ≤ maxChunks ∧
      chunk.ctype.all isAsciiAlphabetic = true ∧
      ∃ keep inspected, inspect { scan with chunks := scan.chunks + 1 } chunk.ctype chunk.data =
        .ok (keep, inspected) ∧
      after = { inspected with
        idatFinished := inspected.idatFinished ||
          (decide (chunk.ctype ≠ typeIdat) && inspected.sawIdat)
        out := if keep then inspected.out ++ chunk.encode else inspected.out } := by
  unfold advance at advanced
  split at advanced
  next => cases advanced
  next going =>
    split at advanced
    next => cases advanced
    next room =>
      split at advanced
      next => cases advanced
      next letters =>
        cases found : inspect { scan with chunks := scan.chunks + 1 } chunk.ctype chunk.data with
        | error fault =>
            rw [found] at advanced
            cases advanced
        | ok pair =>
            rw [found] at advanced
            exact ⟨by simpa using going, by omega, by simpa using letters, pair.1, pair.2, rfl,
              (Except.ok.inj advanced).symm⟩

theorem inspect_ancillary (ancillary : chunk.ancillary = true) :
    inspect scan chunk.ctype chunk.data =
      .ok (false, { scan with idatFinished := scan.idatFinished || scan.sawIdat }) := by
  have unkept := Chunk.kept_of_ancillary ancillary
  simp only [Chunk.kept, Bool.or_eq_false_iff, decide_eq_false_iff_not] at unkept
  simp only [Chunk.ancillary, Bool.and_eq_true] at ancillary
  rcases unkept with ⟨⟨⟨not_ihdr, not_plte⟩, not_idat⟩, not_iend⟩
  simp only [inspect, not_ihdr, not_plte, not_idat, not_iend, if_false, ancillary.1, if_true]
  split
  next data =>
    have flag : (scan.idatFinished || scan.sawIdat) = true := by
      rw [Bool.and_eq_true] at data
      rw [data.1, Bool.or_true]
    rw [flag]
  next rest =>
    have flag : (scan.idatFinished || scan.sawIdat) = scan.idatFinished := by
      cases saw : scan.sawIdat with
      | false => rw [Bool.or_false]
      | true => simpa [saw] using rest
    rw [flag]

theorem inspect_palette (palette : chunk.palette = true) (is_palette : scan.colorType = 3)
    (no_data : scan.sawIdat = false) (first : scan.sawPlte = false) :
    inspect scan chunk.ctype chunk.data = .ok (true, { scan with sawPlte := true }) := by
  have is_type := Chunk.ctype_of_palette palette
  simp only [Chunk.palette, Bool.and_eq_true, decide_eq_true_eq] at palette
  rcases palette with ⟨⟨⟨-, nonempty⟩, thirds⟩, short⟩
  have short : ¬256 * 3 < chunk.data.length := by omega
  simp [inspect, is_type, inspectPlte, is_palette, no_data, first, thirds, short,
    typePlte, typeIhdr, List.length_eq_zero_iff.not.mp nonempty]
  rfl

theorem inspect_image (image : chunk.image = true) (header : scan.sawIhdr = true)
    (going : scan.idatFinished = false) (there : scan.colorType = 3 → scan.sawPlte = true)
    (small : (scan.idat ++ chunk.data).length ≤ maxBundleBytes) :
    inspect scan chunk.ctype chunk.data =
      .ok (true, { scan with sawIdat := true, idat := scan.idat ++ chunk.data }) := by
  have is_type := Chunk.ctype_of_image image
  simp only [Chunk.image, Bool.and_eq_true, decide_eq_true_eq] at image
  have palette_there : (decide (scan.colorType = 3) && !scan.sawPlte) = false := by
    by_cases is_palette : scan.colorType = 3
    · simp [there is_palette]
    · simp [is_palette]
  have fits : ¬maxBundleBytes < (scan.idat ++ chunk.data).length := by omega
  have inspected : inspectIdat scan chunk.data =
      .ok { scan with sawIdat := true, idat := scan.idat ++ chunk.data } := by
    simp only [inspectIdat, header, going, image.2, decide_false, Bool.not_true, Bool.or_false,
      Bool.false_eq_true, if_false, palette_there, fits]
  simp only [inspect, is_type, inspected]
  rfl

theorem inspect_iend (read : scan.sawIdat = true) :
    inspect scan iend.ctype iend.data = .ok (true, { scan with sawIend := true }) := by
  have inspected : inspectIend scan iend.data = .ok { scan with sawIend := true } := by
    simp [inspectIend, read, iend]
  simp only [inspect, inspected]
  rfl

theorem exists_of_map_eq_ok {result : Except Fault Scan} {keep : Bool} {inspected : Scan}
    (found : result.map (true, ·) = .ok (keep, inspected)) :
    ∃ inspected, result = .ok inspected := by
  cases result with
  | error fault => cases found
  | ok inspected => exact ⟨inspected, rfl⟩

theorem plte_of_inspectPlte {data : Bytes} {inspected : Scan}
    (found : inspectPlte scan data = .ok inspected) :
    scan.colorType = 3 ∧ scan.sawIdat = false ∧ scan.sawPlte = false ∧ data.length ≠ 0 ∧
      data.length % 3 = 0 ∧ data.length ≤ 256 * 3 := by
  unfold inspectPlte at found
  split at found
  next => cases found
  next checks =>
    simp only [Bool.or_eq_true, decide_eq_true_eq, not_or, Bool.not_eq_true, not_not] at checks
    rcases checks with ⟨⟨⟨⟨⟨is_palette, no_data⟩, first⟩, nonempty⟩, thirds⟩, short⟩
    exact ⟨is_palette, no_data, first, nonempty, thirds, by omega⟩

theorem idat_of_inspectIdat {data : Bytes} {inspected : Scan}
    (found : inspectIdat scan data = .ok inspected) :
    scan.sawIhdr = true ∧ scan.idatFinished = false ∧ data.length ≠ 0 ∧
      (scan.colorType = 3 → scan.sawPlte = true) ∧
      (scan.idat ++ data).length ≤ maxBundleBytes := by
  unfold inspectIdat at found
  split at found
  next => cases found
  next checks =>
    simp only [Bool.or_eq_true, Bool.not_eq_true', decide_eq_true_eq, not_or, Bool.not_eq_true,
      Bool.not_eq_false] at checks
    rcases checks with ⟨⟨header, going⟩, nonempty⟩
    split at found
    next => cases found
    next palette =>
      split at found
      next => cases found
      next small =>
        refine ⟨header, going, nonempty, ?_, by omega⟩
        intro is_palette
        simpa [is_palette] using palette

theorem iend_of_inspectIend {data : Bytes} {inspected : Scan}
    (found : inspectIend scan data = .ok inspected) : scan.sawIdat = true ∧ data = [] := by
  unfold inspectIend at found
  split at found
  next => cases found
  next checks => simpa using checks

end advance

namespace Layout

variable (layout : Layout) (chunk : Chunk)

theorem encodeAll_concat (chunks : List Chunk) :
    encodeAll ((chunks ++ [chunk]).filter Chunk.kept) =
      if chunk.kept then encodeAll (chunks.filter Chunk.kept) ++ chunk.encode
      else encodeAll (chunks.filter Chunk.kept) := by
  rw [List.filter_append, encodeAll, List.flatMap_append]
  cases kept : chunk.kept with
  | true => simp [kept, encodeAll]
  | false => simp [kept, encodeAll]

theorem chunks_addBefore (unread kind first) :
    (layout.addBefore chunk unread kind first).chunks = layout.chunks ++ [chunk] := by
  rcases layout.in_order unread with ⟨no_after, going⟩
  simp [chunks, addBefore, unread, no_after, going]
  rfl

theorem chunks_addImage (next going image there) :
    (layout.addImage chunk next going image there).chunks = layout.chunks ++ [chunk] := by
  simp [chunks, addImage, next, going]
  rfl

theorem chunks_addAfter (read ancillary) (going : layout.ended = false) :
    (layout.addAfter chunk read ancillary).chunks = layout.chunks ++ [chunk] := by
  simp [chunks, addAfter, going]
  rfl

theorem chunks_finish (read : layout.images ≠ []) (going : layout.ended = false) :
    (layout.finish read).chunks = layout.chunks ++ [iend] := by
  simp [chunks, finish, going]
  rfl

variable {layout chunk}

theorem scan_of_chunks {read : Layout} (extends_by : read.chunks = layout.chunks ++ [chunk]) :
    read.scan = { read.scan with
      out := if chunk.kept then layout.scan.out ++ chunk.encode else layout.scan.out
      chunks := layout.scan.chunks + 1 } := by
  have out : pngMagic ++ encodeAll (read.chunks.filter Chunk.kept) =
      if chunk.kept then layout.scan.out ++ chunk.encode else layout.scan.out := by
    rw [extends_by, encodeAll_concat, scan]
    cases chunk.kept with
    | true => simp
    | false => rfl
  have count : read.chunks.length = layout.scan.chunks + 1 := by
    rw [extends_by, List.length_append]
    rfl
  rw [← out, ← count]
  rfl

theorem advance_addBefore (unread kind first)
    (fits : (layout.addBefore chunk unread kind first).Fits) :
    advance layout.scan chunk = .ok (layout.addBefore chunk unread kind first).scan := by
  rcases layout.in_order unread with ⟨no_after, going⟩
  have room := fits.few_chunks
  rw [chunks_addBefore, List.length_append, List.length_singleton] at room
  rw [scan_of_chunks (layout.chunks_addBefore chunk unread kind first)]
  rcases kind with ancillary | palette
  · have letters : chunk.ctype.all isAsciiAlphabetic = true := by
      rw [Chunk.ancillary, Bool.and_eq_true] at ancillary
      exact ancillary.2
    rw [advance_of_inspect going room letters (inspect_ancillary ancillary)]
    simp [scan, addBefore, unread, no_after, going, Chunk.kept_of_ancillary ancillary,
      List.countP_append, Chunk.palette_of_ancillary ancillary, imageData]
  · have is_type := Chunk.ctype_of_palette palette
    have letters : chunk.ctype.all isAsciiAlphabetic = true := by
      rw [is_type]
      decide
    have kept : chunk.kept = true := by simp [Chunk.kept, is_type]
    rcases first palette with ⟨none_yet, is_palette⟩
    have no_data : layout.scan.sawIdat = false := by simp [scan, unread]
    have no_palette : layout.scan.sawPlte = false := by simp [scan, none_yet]
    rw [advance_of_inspect going room letters
      (inspect_palette palette is_palette no_data no_palette)]
    simp [scan, addBefore, unread, no_after, going, kept, List.countP_append, palette, imageData]

theorem advance_addImage (next going image there)
    (fits : (layout.addImage chunk next going image there).Fits) :
    advance layout.scan chunk = .ok (layout.addImage chunk next going image there).scan := by
  have room := fits.few_chunks
  rw [chunks_addImage, List.length_append, List.length_singleton] at room
  rw [scan_of_chunks (layout.chunks_addImage chunk next going image there)]
  have is_type := Chunk.ctype_of_image image
  have letters : chunk.ctype.all isAsciiAlphabetic = true := by
    rw [is_type]
    decide
  have kept : chunk.kept = true := by simp [Chunk.kept, is_type]
  have unfinished : layout.scan.idatFinished = false := by simp [scan, next, going]
  have plte : layout.scan.colorType = 3 → layout.scan.sawPlte = true := by
    intro is_palette
    exact decide_eq_true (there is_palette)
  have small : (layout.scan.idat ++ chunk.data).length ≤ maxBundleBytes := by
    have small_data := fits.small_data
    simp only [imageData, addImage, List.flatMap_append, List.flatMap_singleton] at small_data
    exact small_data
  rw [advance_of_inspect going room letters (inspect_image image rfl unfinished plte small)]
  simp [scan, addImage, next, going, kept, is_type, imageData]

theorem advance_addAfter (read ancillary) (going : layout.ended = false)
    (fits : (layout.addAfter chunk read ancillary).Fits) :
    advance layout.scan chunk = .ok (layout.addAfter chunk read ancillary).scan := by
  have room := fits.few_chunks
  rw [chunks_addAfter layout chunk read ancillary going, List.length_append, List.length_singleton] at room
  rw [scan_of_chunks (layout.chunks_addAfter chunk read ancillary going)]
  have letters : chunk.ctype.all isAsciiAlphabetic = true := by
    rw [Chunk.ancillary, Bool.and_eq_true] at ancillary
    exact ancillary.2
  rw [advance_of_inspect going room letters (inspect_ancillary ancillary)]
  have data : layout.images.isEmpty = false := by simp [read]
  simp [scan, addAfter, data, going, Chunk.kept_of_ancillary ancillary, imageData]

theorem advance_finish (read : layout.images ≠ []) (going : layout.ended = false) (fits : (layout.finish read).Fits) :
    advance layout.scan iend = .ok (layout.finish read).scan := by
  have room := fits.few_chunks
  rw [chunks_finish layout read going, List.length_append, List.length_singleton] at room
  rw [scan_of_chunks (layout.chunks_finish read going)]
  have data : layout.scan.sawIdat = true := by simp [scan, read]
  rw [advance_of_inspect going room (by decide) (inspect_iend data)]
  have kept : iend.kept = true := by decide
  have not_data : iend.ctype ≠ typeIdat := by decide
  simp [scan, finish, read, imageData, kept, not_data]

/-- A chunk that the loop takes goes on with the layout. -/
theorem exists_extension {after : Scan} (fits : layout.Fits)
    (advanced : advance layout.scan chunk = .ok after) :
    ∃ read : Layout, read.Fits ∧ read.chunks = layout.chunks ++ [chunk] ∧ after = read.scan := by
  rcases inspect_of_advance advanced with ⟨going, room, letters, keep, inspected, found, -⟩
  have going : layout.ended = false := going
  have room : (layout.chunks ++ [chunk]).length ≤ maxChunks := by
    rw [List.length_append]
    exact room
  -- The flags determine the state, so it is enough to find the layout.
  suffices extension : ∃ read : Layout, read.Fits ∧ read.chunks = layout.chunks ++ [chunk] ∧
      advance layout.scan chunk = .ok read.scan by
    rcases extension with ⟨read, read_fits, same_chunks, same⟩
    rw [advanced] at same
    exact ⟨read, read_fits, same_chunks, Except.ok.inj same⟩
  unfold inspect at found
  split at found
  next =>
    rcases exists_of_map_eq_ok found with ⟨_, checked⟩
    cases checked
  next =>
    split at found
    next is_type =>
      rcases exists_of_map_eq_ok found with ⟨_, checked⟩
      rcases plte_of_inspectPlte checked with ⟨is_palette, no_data, first, nonempty, thirds, short⟩
      have palette : chunk.palette = true := by
        simp [Chunk.palette, is_type, List.length_eq_zero_iff.not.mp nonempty, thirds, short]
      have unread : layout.images = [] := by simpa [scan] using no_data
      have none_yet : layout.before.countP Chunk.palette = 0 := by simpa [scan] using first
      have next_fits : (layout.addBefore chunk unread (.inr palette)
          fun _ => ⟨none_yet, is_palette⟩).Fits :=
        ⟨by rw [chunks_addBefore]; exact room, fits.small_data⟩
      exact ⟨_, next_fits, chunks_addBefore .., advance_addBefore _ _ _ next_fits⟩
    next =>
      split at found
      next is_type =>
        rcases exists_of_map_eq_ok found with ⟨_, checked⟩
        rcases idat_of_inspectIdat checked with ⟨-, unfinished, nonempty, plte, small⟩
        have image : chunk.image = true := by
          simp [Chunk.image, is_type, List.length_eq_zero_iff.not.mp nonempty]
        have next : layout.after = [] := by
          simp only [scan, Bool.or_eq_false_iff] at unfinished
          simpa using unfinished.1
        have there : layout.colorType = 3 → 0 < layout.before.countP Chunk.palette :=
          fun is_palette => of_decide_eq_true (plte is_palette)
        have next_fits : (layout.addImage chunk next going image there).Fits := by
          refine ⟨by rw [chunks_addImage]; exact room, ?_⟩
          simp only [imageData, addImage, List.flatMap_append, List.flatMap_singleton]
          exact small
        exact ⟨_, next_fits, chunks_addImage .., advance_addImage _ _ _ _ next_fits⟩
      next =>
        split at found
        next is_type =>
          rcases exists_of_map_eq_ok found with ⟨_, checked⟩
          rcases iend_of_inspectIend checked with ⟨data, empty⟩
          have is_end : chunk = iend := by
            cases chunk
            simp only at is_type empty
            subst is_type empty
            rfl
          subst is_end
          have read : layout.images ≠ [] := by simpa [scan] using data
          have next_fits : (layout.finish read).Fits :=
            ⟨by rw [chunks_finish layout read going]; exact room, fits.small_data⟩
          exact ⟨_, next_fits, chunks_finish layout read going, advance_finish read going next_fits⟩
        next =>
          split at found
          next ancillary_type =>
            have ancillary : chunk.ancillary = true := by
              rw [Chunk.ancillary, ancillary_type, letters]
              rfl
            by_cases unread : layout.images = []
            · have not_palette : chunk.palette = true →
                  layout.before.countP Chunk.palette = 0 ∧ layout.colorType = 3 := by
                rw [Chunk.palette_of_ancillary ancillary]
                exact fun other => absurd other Bool.false_ne_true
              have next_fits : (layout.addBefore chunk unread (.inl ancillary) not_palette).Fits :=
                ⟨by rw [chunks_addBefore]; exact room, fits.small_data⟩
              exact ⟨_, next_fits, chunks_addBefore .., advance_addBefore _ _ _ next_fits⟩
            · have next_fits : (layout.addAfter chunk unread ancillary).Fits :=
                ⟨by rw [chunks_addAfter layout chunk unread ancillary going]; exact room, fits.small_data⟩
              exact ⟨_, next_fits, chunks_addAfter layout chunk unread ancillary going,
                advance_addAfter unread ancillary going next_fits⟩
          next => cases found

theorem Fits.of_concat {shorter : Layout} (fits : layout.Fits)
    (split : layout.chunks = shorter.chunks ++ [chunk])
    (data : shorter.imageData.length ≤ layout.imageData.length) : shorter.Fits := by
  have few := fits.few_chunks
  rw [split, List.length_append] at few
  exact ⟨by omega, data.trans fits.small_data⟩

/-- A layout is a header, or its last chunk has been read after the others. -/
theorem last_cases (layout : Layout) (fits : layout.Fits) :
    layout.chunks = [layout.ihdr] ∨ ∃ (shorter : Layout) (chunk : Chunk), shorter.Fits ∧
      layout.chunks = shorter.chunks ++ [chunk] ∧
      advance shorter.scan chunk = .ok layout.scan := by
  rcases layout with ⟨width, height, colorType, before, images, after, ended, width_range,
    height_range, color_known, before_kinds, palette_once, palette_used, palette_there,
    images_kinds, after_kinds, in_order⟩
  cases ended with
  | true =>
      have read : images ≠ [] := fun unread => absurd (in_order unread).2 (by decide)
      let shorter : Layout := ⟨width, height, colorType, before, images, after, false, width_range,
        height_range, color_known, before_kinds, palette_once, palette_used, palette_there,
        images_kinds, after_kinds, fun unread => absurd unread read⟩
      have split := chunks_finish shorter read rfl
      exact .inr ⟨shorter, iend, fits.of_concat split (Nat.le_refl _), split,
        advance_finish read rfl fits⟩
  | false =>
      rcases List.eq_nil_or_concat' after with rfl | ⟨init, last, rfl⟩
      · rcases List.eq_nil_or_concat' images with rfl | ⟨init, last, rfl⟩
        · rcases List.eq_nil_or_concat' before with rfl | ⟨init, last, rfl⟩
          · exact .inl rfl
          · right
            rw [List.countP_append, List.countP_singleton] at palette_once palette_used
            let shorter : Layout := ⟨width, height, colorType, init, [], [], false, width_range,
              height_range, color_known,
              fun chunk chunk_mem => before_kinds chunk (List.mem_append_left _ chunk_mem),
              by omega, fun used => palette_used (by omega), fun _ read => absurd rfl read,
              images_kinds, after_kinds, fun _ => ⟨rfl, rfl⟩⟩
            have first : last.palette = true →
                shorter.before.countP Chunk.palette = 0 ∧ shorter.colorType = 3 := by
              intro palette
              rw [if_pos palette] at palette_once palette_used
              exact ⟨show init.countP Chunk.palette = 0 by omega, palette_used (by omega)⟩
            have split := chunks_addBefore shorter last rfl (before_kinds last (by simp)) first
            exact ⟨shorter, last, fits.of_concat split (Nat.le_refl _), split,
              advance_addBefore rfl (before_kinds last (by simp)) first fits⟩
        · right
          let shorter : Layout := ⟨width, height, colorType, before, init, [], false, width_range,
            height_range, color_known, before_kinds, palette_once, palette_used,
            fun is_palette _ => palette_there is_palette (by simp),
            fun chunk chunk_mem => images_kinds chunk (List.mem_append_left _ chunk_mem),
            after_kinds, fun _ => ⟨rfl, rfl⟩⟩
          have image := images_kinds last (by simp)
          have there := fun is_palette => palette_there is_palette (by simp)
          have split := chunks_addImage shorter last rfl rfl image there
          have data : shorter.imageData.length ≤ (shorter.addImage last rfl rfl image there).imageData.length := by
            simp [imageData, addImage]
          exact ⟨shorter, last, fits.of_concat split data, split,
            advance_addImage rfl rfl image there fits⟩
      · right
        have read : images ≠ [] := fun unread => absurd (in_order unread).1 (by simp)
        let shorter : Layout := ⟨width, height, colorType, before, images, init, false, width_range,
          height_range, color_known, before_kinds, palette_once, palette_used, palette_there,
          images_kinds,
          fun chunk chunk_mem => after_kinds chunk (List.mem_append_left _ chunk_mem),
          fun unread => absurd unread read⟩
        have ancillary := after_kinds last (by simp)
        have split := chunks_addAfter shorter last read ancillary rfl
        exact ⟨shorter, last, fits.of_concat split (Nat.le_refl _), split,
          advance_addAfter read ancillary rfl fits⟩

/-! ### The header -/

theorem inspectIhdr_ihdr (layout : Layout) (scan : Scan) (unseen : scan.sawIhdr = false)
    (first : scan.chunks = 1) :
    inspectIhdr scan layout.ihdr.data =
      .ok { scan with
        sawIhdr := true
        width := layout.width
        height := layout.height
        colorType := layout.colorType } := by
  have small : maxImageEdge < 2 ^ 32 := by decide
  rcases layout.width_range with ⟨width_pos, width_le⟩
  rcases layout.height_range with ⟨height_pos, height_le⟩
  have width : readU32 layout.ihdr.data 0 = .ok layout.width :=
    readU32_of_append [] (toBeBytes layout.height ++ [8, layout.colorType, 0, 0, 0]) (by omega) rfl
      rfl
  have height : readU32 layout.ihdr.data 4 = .ok layout.height :=
    readU32_of_append (toBeBytes layout.width) [8, layout.colorType, 0, 0, 0] (by omega) rfl rfl
  have long : layout.ihdr.data.length = 13 := rfl
  have edges : ¬(layout.width = 0 ∨ layout.height = 0 ∨ maxImageEdge < layout.width ∨
      maxImageEdge < layout.height) := by omega
  have color : ¬(layout.colorType ≠ 2 ∧ layout.colorType ≠ 6 ∧ layout.colorType ≠ 3) := by
    have known := layout.color_known
    tauto
  have bytes : byteAt layout.ihdr.data 8 = .ok 8 ∧
      byteAt layout.ihdr.data 9 = .ok layout.colorType ∧ byteAt layout.ihdr.data 10 = .ok 0 ∧
      byteAt layout.ihdr.data 11 = .ok 0 ∧ byteAt layout.ihdr.data 12 = .ok 0 :=
    ⟨rfl, rfl, rfl, rfl, rfl⟩
  rcases bytes with ⟨depth, color_read, compression, filter, interlace⟩
  simp only [inspectIhdr, unseen, first, long, width, height, depth, color_read, compression, filter,
    interlace, Checked.ok_bind, checkIhdr, edges, color, ne_eq, not_true_eq_false, decide_false,
    Bool.or_false, Bool.false_eq_true, or_self, if_false]

theorem inspect_ihdr (layout : Layout) (scan : Scan) (unseen : scan.sawIhdr = false)
    (first : scan.chunks = 1) :
    inspect scan layout.ihdr.ctype layout.ihdr.data =
      .ok (true, { scan with
        sawIhdr := true
        width := layout.width
        height := layout.height
        colorType := layout.colorType }) := by
  have is_type : layout.ihdr.ctype = typeIhdr := rfl
  rw [inspect, if_pos is_type, inspectIhdr_ihdr layout scan unseen first]
  rfl

theorem eq_nil_of_only {layout : Layout} (only : layout.chunks = [layout.ihdr]) :
    layout.before = [] ∧ layout.images = [] ∧ layout.after = [] ∧ layout.ended = false := by
  simp only [chunks, List.cons.injEq, List.append_eq_nil_iff, true_and] at only
  rcases only with ⟨⟨⟨no_before, no_images⟩, no_after⟩, going⟩
  exact ⟨no_before, no_images, no_after, by simpa using going⟩

theorem advance_ihdr {layout : Layout} (only : layout.chunks = [layout.ihdr]) :
    advance .start layout.ihdr = .ok layout.scan := by
  rcases eq_nil_of_only only with ⟨no_before, no_images, no_after, going⟩
  have kept : layout.ihdr.kept = true := by simp [Chunk.kept, ihdr]
  have not_data : layout.ihdr.ctype ≠ typeIdat := by
    show typeIhdr ≠ typeIdat
    decide
  have letters : layout.ihdr.ctype.all isAsciiAlphabetic = true := by
    show typeIhdr.all isAsciiAlphabetic = true
    decide
  rw [advance_of_inspect rfl (by decide) letters (inspect_ihdr layout _ rfl rfl)]
  simp [scan, only, kept, no_before, no_images, no_after, going, imageData, encodeAll, Scan.start]

theorem fits_of_only {layout : Layout} (only : layout.chunks = [layout.ihdr]) : layout.Fits := by
  rcases eq_nil_of_only only with ⟨-, no_images, -, -⟩
  refine ⟨?_, ?_⟩
  · rw [only]
    exact Nat.le_of_ble_eq_true rfl
  · rw [imageData, no_images]
    decide

/-- Without a header nothing else is taken than a header at the start and ancillary chunks. -/
theorem headerless_cases {scan after : Scan} (unseen : scan.sawIhdr = false)
    (no_data : scan.sawIdat = false) (no_color : scan.colorType = 0)
    (advanced : advance scan chunk = .ok after) :
    (chunk.ctype = typeIhdr ∧ ∃ inspected,
        inspectIhdr { scan with chunks := scan.chunks + 1 } chunk.data = .ok inspected) ∨
      (after.sawIhdr = false ∧ after.sawIdat = false ∧ after.sawIend = false ∧
        after.colorType = 0 ∧ 0 < after.chunks) := by
  rcases inspect_of_advance advanced with ⟨going, room, letters, keep, inspected, found, rfl⟩
  unfold inspect at found
  split at found
  next is_type => exact .inl ⟨is_type, exists_of_map_eq_ok found⟩
  next =>
    right
    split at found
    next =>
      rcases exists_of_map_eq_ok found with ⟨_, checked⟩
      have is_palette := (plte_of_inspectPlte checked).1
      rw [no_color] at is_palette
      exact absurd is_palette (by decide)
    next =>
      split at found
      next =>
        rcases exists_of_map_eq_ok found with ⟨_, checked⟩
        rw [unseen] at checked
        exact absurd (idat_of_inspectIdat checked).1 Bool.false_ne_true
      next =>
        split at found
        next =>
          rcases exists_of_map_eq_ok found with ⟨_, checked⟩
          rw [no_data] at checked
          exact absurd (iend_of_inspectIend checked).1 Bool.false_ne_true
        next =>
          split at found
          next =>
            simp only [no_data, Bool.false_and, Bool.false_eq_true, if_false, Except.ok.injEq,
              Prod.mk.injEq] at found
            rcases found with ⟨rfl, rfl⟩
            exact ⟨unseen, rfl, going, no_color, Nat.succ_pos _⟩
          next => cases found

/-- A header that is taken is that of a layout. -/
theorem exists_layout_of_ihdr {scan inspected : Scan} (is_type : chunk.ctype = typeIhdr)
    (found : inspectIhdr scan chunk.data = .ok inspected) :
    scan.chunks = 1 ∧ ∃ layout : Layout, layout.chunks = [layout.ihdr] ∧ chunk = layout.ihdr := by
  have long : chunk.data.length = 13 := by
    by_contra short
    simp [inspectIhdr, short, reject] at found
  rcases exists_fields long with ⟨width, height, bitDepth, colorType, compression, filter, interlace,
    -, -, fields, reads⟩
  rw [reads] at found
  split at found
  next => cases found
  next checks =>
    simp only [Bool.or_eq_true, decide_eq_true_eq, not_or, not_not] at checks
    refine ⟨checks.2, ?_⟩
    unfold checkIhdr at found
    split at found
    next => cases found
    next edges =>
      split at found
      next => cases found
      next depth =>
        split at found
        next => cases found
        next color =>
          split at found
          next => cases found
          next zeros =>
            simp only [not_or, ne_eq, not_not] at depth zeros
            rcases zeros with ⟨rfl, rfl, rfl⟩
            subst depth
            have known : colorType = 2 ∨ colorType = 6 ∨ colorType = 3 := by tauto
            let layout : Layout := ⟨width, height, colorType, [], [], [], false, by omega, by omega,
              known, by simp, by simp, by simp, by simp, by simp, by simp, fun _ => ⟨rfl, rfl⟩⟩
            refine ⟨layout, rfl, ?_⟩
            cases chunk
            simp only at is_type fields
            subst is_type fields
            rfl

end Layout

/-! ## Runs of the loop -/

theorem advanceAll_concat (scan : Scan) (chunks : List Chunk) (chunk : Chunk) :
    advanceAll scan (chunks ++ [chunk]) =
      (advanceAll scan chunks >>= fun scan => advance scan chunk) := by
  simp [advanceAll]

/-- The loop takes the chunks of a layout. -/
theorem advanceAll_layout (layout : Layout) (fits : layout.Fits) :
    advanceAll .start layout.chunks = .ok layout.scan := by
  generalize count : layout.chunks.length = number
  induction number generalizing layout with
  | zero => simp [Layout.chunks] at count
  | succ number ih =>
      rcases layout.last_cases fits with only | ⟨shorter, chunk, shorter_fits, split, last⟩
      · rw [only, advanceAll, List.foldlM_cons, Layout.advance_ihdr only]
        rfl
      · rw [split, List.length_append, List.length_singleton] at count
        rw [split, advanceAll_concat, ih shorter shorter_fits (by omega)]
        exact last

/-- What the loop takes is a layout, or begins without a header. -/
theorem advanceAll_cases {chunks : List Chunk} {after : Scan}
    (taken : advanceAll .start chunks = .ok after) :
    (chunks = [] ∧ after = .start) ∨
      (after.sawIhdr = false ∧ after.sawIdat = false ∧ after.sawIend = false ∧
        after.colorType = 0 ∧ 0 < after.chunks) ∨
      ∃ layout : Layout, layout.Fits ∧ layout.chunks = chunks ∧ after = layout.scan := by
  induction chunks using List.reverseRecOn generalizing after with
  | nil => exact .inl ⟨rfl, (Except.ok.inj taken).symm⟩
  | append_singleton chunks chunk ih =>
      rw [advanceAll_concat] at taken
      cases earlier : advanceAll .start chunks with
      | error fault =>
          rw [earlier] at taken
          cases taken
      | ok scan =>
          rw [earlier, Checked.ok_bind] at taken
          rcases ih earlier with ⟨rfl, rfl⟩ | headless | ⟨layout, fits, rfl, rfl⟩
          · rcases Layout.headerless_cases rfl rfl rfl taken with ⟨is_type, _, found⟩ | headless
            · rcases Layout.exists_layout_of_ihdr is_type found with ⟨-, layout, only, rfl⟩
              rw [Layout.advance_ihdr only] at taken
              exact .inr (.inr ⟨layout, Layout.fits_of_only only, only, (Except.ok.inj taken).symm⟩)
            · exact .inr (.inl headless)
          · rcases headless with ⟨unseen, no_data, -, no_color, some_chunk⟩
            rcases Layout.headerless_cases unseen no_data no_color taken with
              ⟨is_type, _, found⟩ | headless
            · have first := (Layout.exists_layout_of_ihdr is_type found).1
              simp only at first
              omega
            · exact .inr (.inl headless)
          · rcases Layout.exists_extension fits taken with ⟨read, read_fits, same, rfl⟩
            exact .inr (.inr ⟨read, read_fits, same, rfl⟩)

end ScuffedCrew.StatReports
