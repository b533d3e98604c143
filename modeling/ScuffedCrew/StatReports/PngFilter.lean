import ScuffedCrew.StatReports.PngLayout

/-!
# The filter is exact

The filter accepts the encodings of complete layouts within its limits, and it
puts out the chunks of the layout that it keeps.
-/

namespace ScuffedCrew.StatReports

open Rust Checked

/-! ## Termination -/

theorem onlyRejects_inflateLoop (zlib : ZlibDecoder) (idat : Bytes) (expected : ℕ)
    {fuel reads total : ℕ} (in_size : total ≤ expected) (fueled : expected + 1 < total + fuel) :
    OnlyRejects (inflateLoop zlib idat expected fuel reads total) := by
  induction fuel generalizing reads total with
  | zero => omega
  | succ fuel ih =>
      unfold inflateLoop
      split
      next => exact onlyRejects_reject _
      next count _ =>
        split
        next => exact onlyRejects_ok _
        next =>
          split
          next => exact onlyRejects_reject _
          next => exact ih (by omega) (by omega)

theorem onlyRejects_inflateExact (zlib : ZlibDecoder) (idat : Bytes) (expected : ℕ) :
    OnlyRejects (inflateExact zlib idat expected) := by
  have loops : OnlyRejects (inflateLoop zlib idat expected (expected + 2) 0 0) :=
    onlyRejects_inflateLoop zlib idat expected (Nat.zero_le _) (by omega)
  unfold inflateExact
  split
  next fault failed =>
    rcases loops fault failed with ⟨message, rfl⟩
    intro other failed
    cases failed
    exact ⟨message, rfl⟩
  next => simp

theorem onlyRejects_advanceAll (chunks : List Chunk) (scan : Scan) :
    OnlyRejects (advanceAll scan chunks) := by
  induction chunks generalizing scan with
  | nil => exact onlyRejects_ok _
  | cons chunk chunks ih => exact onlyRejects_bind (onlyRejects_advance scan chunk) fun after _ => ih after

theorem onlyRejects_scanChunks {input : Bytes} {fuel i : ℕ} {scan : Scan} (inside : i ≤ input.length)
    (fueled : input.length < i + fuel) : OnlyRejects (scanChunks input fuel i scan) := by
  rcases scanChunks_cases scan inside fueled with ⟨chunks, split⟩ | ⟨message, rejects⟩
  · rw [scanChunks_of_encodeAll inside split fueled]
    exact onlyRejects_advanceAll chunks scan
  · rw [rejects]
    intro fault failed
    cases failed
    exact ⟨message, rfl⟩

/-- No run of the filter takes an index past the end or goes on for ever. -/
theorem onlyRejects_preparePng (zlib : ZlibDecoder) (input : Bytes) :
    OnlyRejects (preparePng zlib input) := by
  simp only [preparePng, onlyRejects_ite, onlyRejects_reject, implies_true, true_and]
  intro _ long
  rw [slice_of_le input 0 8 (by omega) (by omega), ok_bind]
  simp only [onlyRejects_ite, onlyRejects_reject, implies_true, true_and]
  intro _
  apply onlyRejects_bind
  · exact onlyRejects_scanChunks (by omega) (by omega)
  · intro scan _
    simp only [onlyRejects_ite, onlyRejects_reject, implies_true, true_and]
    intro _
    apply onlyRejects_bind
    · simp [bytesPerPixel]
    · intro bpp _
      simp only [onlyRejects_ite, onlyRejects_reject, implies_true, true_and]
      intro _
      apply onlyRejects_bind
      · exact onlyRejects_inflateExact zlib scan.idat _
      · exact fun _ _ => onlyRejects_ok _

/-! ## Acceptance -/

namespace Layout

def decodedLength (layout : Layout) : ℕ :=
  layout.height * (1 + layout.width *
    if layout.colorType = 2 then 3 else if layout.colorType = 6 then 4 else 1)

/-- A complete layout within the limits, with image data that decodes to its size. -/
structure Accepted (zlib : ZlibDecoder) (layout : Layout) : Prop where
  complete : layout.ended = true
  fits : layout.Fits
  small : layout.decodedLength ≤ maxDecodedBytes
  inflates : inflateExact zlib layout.imageData layout.decodedLength = .ok ()

end Layout

/-- The bytes of a pixel, for the color types that a header can have. -/
theorem bytesPerPixel_layout (layout : Layout) :
    bytesPerPixel layout.colorType =
      .ok (if layout.colorType = 2 then 3 else if layout.colorType = 6 then 4 else 1) := by
  rcases layout.color_known with color | color | color
  all_goals
    rw [color]
    rfl

theorem decodedLength_pos (layout : Layout) : 0 < layout.decodedLength := by
  have height_pos := layout.height_range.1
  exact Nat.mul_pos height_pos (by omega)

/-- The filter on bytes that begin with the magic. -/
theorem preparePng_magic (zlib : ZlibDecoder) (rest : Bytes) :
    preparePng zlib (pngMagic ++ rest) =
      (scanChunks (pngMagic ++ rest) ((pngMagic ++ rest).length + 1) 8 .start >>= fun scan =>
        if !scan.sawIend then reject "png is missing iend"
        else bytesPerPixel scan.colorType >>= fun bpp =>
          if scan.height * (1 + scan.width * bpp) = 0 ∨
              maxDecodedBytes < scan.height * (1 + scan.width * bpp) then
            reject "decoded image is too large"
          else inflateExact zlib scan.idat (scan.height * (1 + scan.width * bpp)) >>= fun _ =>
            .ok scan.out) := by
  have long : ¬(pngMagic ++ rest).length < 8 := by
    rw [List.length_append]
    show ¬8 + rest.length < 8
    omega
  have magic : slice (pngMagic ++ rest) 0 8 = .ok pngMagic :=
    slice_of_append [] rest rfl rfl rfl
  have not_jpeg : jpegMagic.isPrefixOf (pngMagic ++ rest) = false := rfl
  simp only [preparePng, not_jpeg, Bool.false_eq_true, if_false, long, magic, ok_bind, ne_eq,
    not_true_eq_false]
  rfl

theorem magic_of_preparePng {zlib : ZlibDecoder} {input output : Bytes}
    (accepted : preparePng zlib input = .ok output) : ∃ rest, input = pngMagic ++ rest := by
  unfold preparePng at accepted
  split at accepted
  next => cases accepted
  next =>
    split at accepted
    next => cases accepted
    next long =>
      rw [slice_of_le input 0 8 (by omega) (by omega), ok_bind] at accepted
      split at accepted
      next => cases accepted
      next magic =>
        refine ⟨input.drop 8, ?_⟩
        rw [ne_eq, not_not] at magic
        rw [← magic]
        exact (List.take_append_drop 8 input).symm

theorem scanChunks_magic {chunks : List Chunk} :
    scanChunks (pngMagic ++ encodeAll chunks) ((pngMagic ++ encodeAll chunks).length + 1) 8 .start =
      advanceAll .start chunks := by
  apply scanChunks_of_encodeAll
  · rw [List.length_append]
    exact Nat.le_add_right 8 _
  · rfl
  · omega

/-- After a layout the filter looks at its end and its image data. -/
theorem preparePng_layout {zlib : ZlibDecoder} {layout : Layout} (fits : layout.Fits) :
    preparePng zlib (pngMagic ++ encodeAll layout.chunks) =
      if !layout.ended then reject "png is missing iend"
      else if layout.decodedLength = 0 ∨ maxDecodedBytes < layout.decodedLength then
        reject "decoded image is too large"
      else inflateExact zlib layout.imageData layout.decodedLength >>= fun _ =>
        .ok (pngMagic ++ encodeAll (layout.chunks.filter Chunk.kept)) := by
  have bpp : bytesPerPixel layout.scan.colorType = _ := bytesPerPixel_layout layout
  rw [preparePng_magic, scanChunks_magic, advanceAll_layout layout fits, ok_bind, bpp, ok_bind]
  rfl

theorem preparePng_of_accepted {zlib : ZlibDecoder} {layout : Layout}
    (accepted : layout.Accepted zlib) :
    preparePng zlib (pngMagic ++ encodeAll layout.chunks) =
      .ok (pngMagic ++ encodeAll (layout.chunks.filter Chunk.kept)) := by
  have positive := decodedLength_pos layout
  have small := accepted.small
  have sized : ¬(layout.decodedLength = 0 ∨ maxDecodedBytes < layout.decodedLength) := by omega
  rw [preparePng_layout accepted.fits, accepted.complete, if_neg sized, accepted.inflates]
  rfl

/-- An input that begins with no layout is rejected at the latest for its missing end. -/
theorem exists_layout_of_preparePng {zlib : ZlibDecoder} {input output : Bytes}
    (prepared : preparePng zlib input = .ok output) :
    ∃ layout : Layout, layout.Fits ∧ input = pngMagic ++ encodeAll layout.chunks := by
  rcases magic_of_preparePng prepared with ⟨rest, rfl⟩
  rw [preparePng_magic] at prepared
  have inside : 8 ≤ (pngMagic ++ rest).length := by
    rw [List.length_append]
    exact Nat.le_add_right 8 _
  have fueled : (pngMagic ++ rest).length < 8 + ((pngMagic ++ rest).length + 1) := by omega
  rcases scanChunks_cases .start inside fueled with ⟨chunks, split⟩ | ⟨message, rejects⟩
  · have is_rest : rest = encodeAll chunks := split
    subst is_rest
    rw [scanChunks_magic] at prepared
    cases taken : advanceAll .start chunks with
    | error fault =>
        rw [taken] at prepared
        cases prepared
    | ok scan =>
        rw [taken, ok_bind] at prepared
        rcases advanceAll_cases taken with ⟨-, rfl⟩ | ⟨-, -, unended, -⟩ | ⟨layout, fits, rfl, -⟩
        · cases prepared
        · rw [unended] at prepared
          cases prepared
        · exact ⟨layout, fits, rfl⟩
  · rw [rejects] at prepared
    cases prepared

theorem preparePng_ok_iff {zlib : ZlibDecoder} {input output : Bytes} :
    preparePng zlib input = .ok output ↔
      ∃ layout : Layout, layout.Accepted zlib ∧ input = pngMagic ++ encodeAll layout.chunks ∧
        output = pngMagic ++ encodeAll (layout.chunks.filter Chunk.kept) := by
  constructor
  · intro prepared
    rcases exists_layout_of_preparePng prepared with ⟨layout, fits, rfl⟩
    rw [preparePng_layout fits] at prepared
    split at prepared
    next => cases prepared
    next complete =>
      split at prepared
      next => cases prepared
      next sized =>
        cases inflates : inflateExact zlib layout.imageData layout.decodedLength with
        | error fault =>
            rw [inflates] at prepared
            cases prepared
        | ok done =>
            rw [inflates, ok_bind] at prepared
            exact ⟨layout, ⟨by simpa using complete, fits, by omega, inflates⟩, rfl,
              (Except.ok.inj prepared).symm⟩
  · rintro ⟨layout, accepted, rfl, rfl⟩
    exact preparePng_of_accepted accepted

/-! ## Stability -/

namespace Layout

/-- The layout without its ancillary chunks. -/
def stripped (layout : Layout) : Layout :=
  { layout with
    before := layout.before.filter Chunk.palette
    after := []
    before_kinds := fun chunk chunk_mem => .inr (List.mem_filter.mp chunk_mem).2
    palette_once := by
      rw [List.countP_filter]
      simpa using layout.palette_once
    palette_used := by
      rw [List.countP_filter]
      simpa using layout.palette_used
    palette_there := by
      rw [List.countP_filter]
      simpa using layout.palette_there
    after_kinds := by simp
    in_order := fun unread => ⟨rfl, (layout.in_order unread).2⟩ }

theorem chunks_stripped (layout : Layout) :
    layout.stripped.chunks = layout.chunks.filter Chunk.kept := by
  have header : layout.ihdr.kept = true := by simp [Chunk.kept, ihdr]
  have before : layout.before.filter Chunk.kept = layout.before.filter Chunk.palette := by
    apply List.filter_congr
    intro chunk chunk_mem
    rcases layout.before_kinds chunk chunk_mem with ancillary | palette
    · rw [Chunk.kept_of_ancillary ancillary, Chunk.palette_of_ancillary ancillary]
    · rw [palette]
      simp [Chunk.kept, Chunk.ctype_of_palette palette]
  have images : layout.images.filter Chunk.kept = layout.images := by
    rw [List.filter_eq_self]
    intro chunk chunk_mem
    simp [Chunk.kept, Chunk.ctype_of_image (layout.images_kinds chunk chunk_mem)]
  have after : layout.after.filter Chunk.kept = [] := by
    rw [List.filter_eq_nil_iff]
    intro chunk chunk_mem
    simp [Chunk.kept_of_ancillary (layout.after_kinds chunk chunk_mem)]
  have ending : (if layout.ended then [iend] else []).filter Chunk.kept =
      if layout.ended then [iend] else [] := by
    cases layout.ended <;> rfl
  rw [chunks, chunks, List.filter_cons_of_pos header, List.filter_append, List.filter_append,
    List.filter_append, before, images, after, ending]
  rfl

theorem accepted_stripped {zlib : ZlibDecoder} {layout : Layout} (accepted : layout.Accepted zlib) :
    layout.stripped.Accepted zlib where
  complete := accepted.complete
  fits := by
    refine ⟨?_, accepted.fits.small_data⟩
    rw [chunks_stripped]
    exact (List.length_filter_le _ _).trans accepted.fits.few_chunks
  small := accepted.small
  inflates := accepted.inflates

end Layout

theorem preparePng_output {zlib : ZlibDecoder} {input output : Bytes}
    (prepared : preparePng zlib input = .ok output) : preparePng zlib output = .ok output := by
  rcases preparePng_ok_iff.mp prepared with ⟨layout, accepted, rfl, rfl⟩
  have again := preparePng_of_accepted (Layout.accepted_stripped accepted)
  rw [layout.chunks_stripped, List.filter_filter] at again
  simpa only [Bool.and_self] using again

/-- No run faults, exactly the PNGs within the limits are accepted, and the output is the
kept chunks of the input and is left as it is. -/
theorem preparePng_exact (zlib : ZlibDecoder) (input : Bytes) :
    preparePng zlib input ≠ .error .outOfRange ∧ preparePng zlib input ≠ .error .outOfFuel ∧
      ∀ output,
        (preparePng zlib input = .ok output ↔
          ∃ layout : Layout, layout.Accepted zlib ∧ input = pngMagic ++ encodeAll layout.chunks ∧
            output = pngMagic ++ encodeAll (layout.chunks.filter Chunk.kept)) ∧
        (preparePng zlib input = .ok output → preparePng zlib output = .ok output) := by
  have rejects := onlyRejects_preparePng zlib input
  refine ⟨?_, ?_, ?_⟩
  · intro faults
    rcases rejects _ faults with ⟨message, is_rejected⟩
    cases is_rejected
  · intro faults
    rcases rejects _ faults with ⟨message, is_rejected⟩
    cases is_rejected
  · intro output
    exact ⟨preparePng_ok_iff, preparePng_output⟩

end ScuffedCrew.StatReports
