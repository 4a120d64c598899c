import Mathlib.Data.Int.Cast.Lemmas
import Mathlib.Data.List.Forall2
import Mathlib.Tactic.Linarith
import BidProof.Ocr.Extract

/-!
# Coordinates of tiled OCR

When the full-page pass looks truncated, `ocrPageImage` has strips of the page recognised as images
of their own and puts their lines behind those of the full page.  A line of a strip has its box in
the pixels of the strip.  `tracedLines` keeps with each line of the merged result the offset of the
image in which it was recognised, and `truePosition` moves its box into the full page image.

The merged result has its boxes in place, and redaction and the blocks of the page cover the lines,
exactly when the lines of the strips that are put into it are those of strips that begin where the
page begins, or have no boxes (`tiled_coordinates_iff`).
-/

namespace BidProof

open Text

/-! ## Rectangles -/

/-- The rectangle moved by a number of pixels. -/
def Rect.shift (r : Rect) (offset : ℤ × ℤ) : Rect :=
  ⟨r.x0 + offset.1, r.y0 + offset.2, r.x1 + offset.1, r.y1 + offset.2⟩

def Rect.Contains (r : Rect) (x y : ℚ) : Prop := r.x0 ≤ x ∧ x ≤ r.x1 ∧ r.y0 ≤ y ∧ y ≤ r.y1

instance (r : Rect) (x y : ℚ) : Decidable (r.Contains x y) :=
  inferInstanceAs (Decidable (_ ∧ _ ∧ _ ∧ _))

theorem Rect.shift_zero (r : Rect) : r.shift (0, 0) = r := by
  simp [Rect.shift]

theorem Rect.shift_eq_self_iff (r : Rect) (offset : ℤ × ℤ) :
    r.shift offset = r ↔ offset = (0, 0) := by
  constructor
  · intro h
    have hx := congrArg Rect.x0 h
    have hy := congrArg Rect.y0 h
    simp only [Rect.shift, add_eq_left, Int.cast_eq_zero] at hx hy
    exact Prod.ext hx hy
  · rintro rfl
    exact r.shift_zero

/-- A point of the image that lies in the box of a line is painted with it. -/
theorem Rect.Contains.maskRect {box : Rect} {x y : ℚ} (h : box.Contains x y) {width height : ℕ}
    (hx : 0 ≤ x ∧ x ≤ width) (hy : 0 ≤ y ∧ y ≤ height) :
    (BidProof.maskRect width height box).Contains x y := by
  obtain ⟨hx0, hx1, hy0, hy1⟩ := h
  exact ⟨max_le hx.1 (by linarith), le_min hx.2 (by linarith), max_le hy.1 (by linarith),
    le_min hy.2 (by linarith)⟩

/-! ## Traced lines -/

section Traced

variable (env : OcrEnv) (ocr : OcrCall → Option OCRResult) (origin : Rect → ℤ × ℤ)
  (page : PdfPage) (adapter : OCRAdapter) (page_number : ℕ)

/-- The result of the full-page pass. -/
def fullResult : Option OCRResult := (adapter.extract ocr (.pixmap page_number none) page_number).1

/-- The results of the strips for which an engine has answered, with their numbers. -/
def stripResults : List (ℕ × OCRResult) :=
  (List.range (tileCount env)).filterMap fun index =>
    (adapter.extract ocr (.pixmap page_number (some (stripClip page.rect (tileCount env) index)))
      page_number).1.map fun tile => (index, tile)

/-- The texts of the strips that are not blank. -/
def stripTexts (tiles : List OCRResult) : List (List Char) :=
  (tiles.map fun t => strip t.text).filter (· ≠ [])

/-- `stitch` takes the strips into the result: they have more text than the full-page pass. -/
def TakesStrips (full : OCRResult) (tiles : List OCRResult) : Prop :=
  ¬(stripTexts tiles = [] ∨ (['\n'].intercalate (stripTexts tiles)).length ≤ full.text.length)

instance (full : OCRResult) (tiles : List OCRResult) : Decidable (TakesStrips full tiles) :=
  inferInstanceAs (Decidable (¬_))

/-- The page is tiled, and the strips are taken into the result. -/
def Tiled (full : OCRResult) : Prop :=
  needsPageTiling env full page.rect.height = true ∧
    TakesStrips full ((stripResults env ocr page adapter page_number).map Prod.snd)

instance (full : OCRResult) : Decidable (Tiled env ocr page adapter page_number full) :=
  inferInstanceAs (Decidable (_ ∧ _))

/-- The place of the image of a strip in the image of the full page, where `origin` is the pixel at
which the renderer begins the image of a rectangle of the page. -/
def stripOffset (index : ℕ) : ℤ × ℤ :=
  origin (stripClip page.rect (tileCount env) index) - origin page.rect

/-- The lines of the merged result with the offsets of the images in which they were recognised. -/
def tracedLines (full : OCRResult) : List ((ℤ × ℤ) × OCRLine) :=
  (full.lines.map fun line => ((0, 0), line)) ++
    if Tiled env ocr page adapter page_number full then
      (stripResults env ocr page adapter page_number).flatMap fun strip =>
        strip.2.lines.map fun line => (stripOffset env origin page strip.1, line)
    else []

theorem lines_stitch (full : OCRResult) (tiles : List OCRResult) :
    (stitch full tiles).lines =
      full.lines ++ if TakesStrips full tiles then tiles.flatMap OCRResult.lines else [] := by
  by_cases h : TakesStrips full tiles
  · rw [if_pos h]
    exact congrArg OCRResult.lines (if_neg h)
  · rw [if_neg h, List.append_nil]
    exact congrArg OCRResult.lines (if_pos (not_not.1 h))

/-- The merged result has the traced lines. -/
theorem lines_ocrPageImage {full result : OCRResult}
    (hfull : fullResult ocr adapter page_number = some full)
    (hresult : (ocrPageImage env ocr page adapter page_number).1 = some result) :
    result.lines = (tracedLines env ocr origin page adapter page_number full).map Prod.snd := by
  have htiles : ((List.range (tileCount env)).map fun index =>
      adapter.extract ocr (.pixmap page_number (some (stripClip page.rect (tileCount env) index)))
        page_number).filterMap Prod.fst =
      (stripResults env ocr page adapter page_number).map Prod.snd := by
    rw [List.filterMap_map, stripResults, List.map_filterMap]
    refine List.filterMap_congr fun index _ => ?_
    rw [Option.map_map]
    exact Option.map_id'.symm
  have hlines : (tracedLines env ocr origin page adapter page_number full).map Prod.snd =
      full.lines ++ if Tiled env ocr page adapter page_number full then
        ((stripResults env ocr page adapter page_number).map Prod.snd).flatMap OCRResult.lines
      else [] := by
    unfold tracedLines
    split_ifs
    · simp [List.map_flatMap, List.flatMap_map, Function.comp_def]
    · simp [Function.comp_def]
  rw [hlines]
  unfold fullResult at hfull
  unfold ocrPageImage at hresult
  rcases hfirst : adapter.extract ocr (.pixmap page_number none) page_number with ⟨first, calls⟩
  rw [hfirst] at hfull hresult
  cases hfull
  by_cases htiling : needsPageTiling env full page.rect.height = true
  · simp only [htiling] at hresult
    cases hresult
    rw [htiles, lines_stitch]
    simp only [Tiled, htiling, true_and]
  · simp only [htiling] at hresult
    cases hresult
    simp [Tiled, htiling]

end Traced

/-! ## Places -/

/-- The box of a traced line in the image of the full page. -/
def truePosition (x : (ℤ × ℤ) × OCRLine) : Option Rect := x.2.bbox.map fun box => box.shift x.1

/-- The corners of a box of the image in points of the page. -/
def pagePoints (scale : ℚ) (box : Rect) : List ℚ := [box.x0, box.y0, box.x1, box.y1].map (· / scale)

/-- `_blocks_from_ocr_result` at any scale. -/
def blocksAtScale (scale : ℚ) (result : OCRResult) (page_number : ℕ) (page_rect : Rect) :
    List Block :=
  let points : List ℚ := [page_rect.x0, page_rect.y0, page_rect.x1, page_rect.y1]
  if result.lines = [] then
    [{ text := result.text
       bbox := some points
       locator := some
        { kind := "page"
          label := s!"第 {page_number} 页"
          position := [("page", .int page_number), ("index", .int page_number),
            ("bbox", .box points)] } }]
  else
    (result.lines.zipIdx 1).map fun x =>
      let bbox := x.1.bbox.map (pagePoints scale)
      { text := x.1.text
        bbox := bbox
        locator := some
          { kind := "ocr_line"
            label := s!"第 {page_number} 页 · OCR行 {x.2}"
            position := [("page", .int page_number), ("line", .int x.2),
              ("bbox", bbox.elim .null .box)] } }

example : blocksAtScale (3 / 2) = blocksFromOcrResult := rfl

/-- The boxes of the merged result are in the pixels of the full page, redaction paints over the
whole of every line that needs a mask, and the blocks have the places of the lines. -/
structure InPlace (traced : List ((ℤ × ℤ) × OCRLine)) (page : PdfPage) (page_number : ℕ) (scale : ℚ)
    (result : OCRResult) : Prop where
  boxes : List.Forall₂ (fun x line => line.text = x.2.text ∧ line.bbox = truePosition x) traced
    result.lines
  painted : ∀ x ∈ traced, lineNeedsMask x.2.text = true → ∀ box, truePosition x = some box →
    ∀ px py : ℚ, box.Contains px py → 0 ≤ px ∧ px ≤ page.pixmap_width →
      0 ≤ py ∧ py ≤ page.pixmap_height →
      ∃ r ∈ paintedRects page.pixmap_width page.pixmap_height result.lines (8 / 100) (8 / 100),
        r.Contains px py
  blocks : result.lines ≠ [] → List.Forall₂
    (fun x block => block.bbox = (truePosition x).map (pagePoints scale)) traced
      (blocksAtScale scale result page_number page.rect)

theorem truePosition_eq_iff (x : (ℤ × ℤ) × OCRLine) :
    x.2.bbox = truePosition x ↔ (x.2.bbox.isSome → x.1 = (0, 0)) := by
  unfold truePosition
  cases x.2.bbox with
  | none => simp
  | some box =>
    rw [Option.map_some, Option.some.injEq, eq_comm, Rect.shift_eq_self_iff]
    simp

theorem forall₂_map_zipIdx {α β : Type} {R : α → β → Prop} {f : α × ℕ → β}
    {l : List α} (h : ∀ x ∈ l, ∀ n, R x (f (x, n))) (n : ℕ) :
    List.Forall₂ R l ((l.zipIdx n).map f) := by
  induction l generalizing n with
  | nil => exact .nil
  | cons x l ih =>
    rw [List.forall_mem_cons] at h
    exact .cons (h.1 n) (ih h.2 (n + 1))

/-- The lines are in place exactly when no line with a box comes from an image that begins
elsewhere. -/
theorem inPlace_iff {traced : List ((ℤ × ℤ) × OCRLine)} {page : PdfPage} {page_number : ℕ}
    {scale : ℚ} {result : OCRResult} (hlines : result.lines = traced.map Prod.snd) :
    InPlace traced page page_number scale result ↔
      ∀ x ∈ traced, x.2.bbox.isSome → x.1 = (0, 0) := by
  have hboxes : List.Forall₂ (fun x line => line.text = x.2.text ∧ line.bbox = truePosition x)
      traced result.lines ↔ ∀ x ∈ traced, x.2.bbox.isSome → x.1 = (0, 0) := by
    rw [hlines, List.forall₂_map_right_iff, List.forall₂_same]
    exact forall₂_congr fun x _ => (and_iff_right rfl).trans (truePosition_eq_iff x)
  refine ⟨fun h => hboxes.1 h.boxes, fun h => ⟨hboxes.2 h, ?_, fun hne => ?_⟩⟩
  · intro x hx hmask box hbox px py hin hpx hpy
    rw [← (truePosition_eq_iff x).2 (h x hx)] at hbox
    have hmem : x.2 ∈ result.lines := hlines ▸ List.mem_map_of_mem hx
    exact ⟨_, mem_paintedRects hmem hmask hbox, hin.maskRect hpx hpy⟩
  · unfold blocksAtScale
    rw [if_neg hne, hlines, List.zipIdx_map, List.map_map]
    refine forall₂_map_zipIdx (fun x hx _ => ?_) 1
    exact congrArg (Option.map (pagePoints scale)) ((truePosition_eq_iff x).2 (h x hx))

/-- The lines with boxes of the strips that are taken into the result come from strips that begin
where the page begins. -/
def StripsAtOrigin (env : OcrEnv) (ocr : OcrCall → Option OCRResult) (origin : Rect → ℤ × ℤ)
    (page : PdfPage) (adapter : OCRAdapter) (page_number : ℕ) (full : OCRResult) : Prop :=
  Tiled env ocr page adapter page_number full →
    ∀ strip ∈ stripResults env ocr page adapter page_number, ∀ line ∈ strip.2.lines,
      line.bbox.isSome → stripOffset env origin page strip.1 = (0, 0)

/-- For every page, every number of strips, every scale and every renderer, the merged result is in
place exactly when no line with a box comes from a strip that begins elsewhere than the page. -/
theorem tiled_coordinates_iff (env : OcrEnv) (ocr : OcrCall → Option OCRResult)
    (origin : Rect → ℤ × ℤ) (page : PdfPage) (adapter : OCRAdapter) (page_number : ℕ) (scale : ℚ)
    {full result : OCRResult} (hfull : fullResult ocr adapter page_number = some full)
    (hresult : (ocrPageImage env ocr page adapter page_number).1 = some result) :
    InPlace (tracedLines env ocr origin page adapter page_number full) page page_number scale
        result ↔
      StripsAtOrigin env ocr origin page adapter page_number full := by
  rw [inPlace_iff (lines_ocrPageImage env ocr origin page adapter page_number hfull hresult)]
  unfold tracedLines StripsAtOrigin
  by_cases ht : Tiled env ocr page adapter page_number full
  · simp only [if_pos ht, List.forall_mem_append, List.forall_mem_map, List.forall_mem_flatMap]
    exact ⟨fun h _ => h.2, fun h => ⟨fun _ _ _ => trivial, h ht⟩⟩
  · simp [ht]

/-! ### Counterexample -/

/-- The renderer begins the image of a rectangle at the pixel of its upper left corner. -/
def pixelOrigin (scale : ℚ) (r : Rect) : ℤ × ℤ := ((r.x0 * scale).floor, (r.y0 * scale).floor)

/-- A scanned page of the size Letter. -/
def letterPage : PdfPage where
  rect := ⟨0, 0, 612, 792⟩
  text := []
  blocks := []
  pixmap_width := 918
  pixmap_height := 1188

def titleLine : OCRLine where
  text := "封面".toList
  bbox := some ⟨300, 100, 400, 140⟩

def contactLine : OCRLine where
  text := "电话：13800000000".toList
  bbox := some ⟨10, 10, 200, 30⟩

/-- What an engine reads on the whole page, without confidence. -/
def letterResult : OCRResult where
  text := titleLine.text
  confidence := some (2 / 5)
  provider := "rapidocr"
  lines := [titleLine]

/-- An engine that reads a telephone number only on the second strip of the page. -/
def contactEngine (call : OcrCall) : Option OCRResult :=
  if call.image = .pixmap 1 none then some letterResult
  else if call.image = .pixmap 1 (some (stripClip letterPage.rect 3 1)) then
    some
      { text := contactLine.text, confidence := some (9 / 10), provider := "rapidocr",
        lines := [contactLine] }
  else none

/-- The result of the page has the line of the second strip. -/
def contactResult : OCRResult where
  text := contactLine.text
  confidence := some (9 / 10)
  provider := "rapidocr+tiles"
  lines := [titleLine, contactLine]

theorem ocrPageImage_letterPage :
    (ocrPageImage {} contactEngine letterPage (.single .rapid) 1).1 = some contactResult := by
  decide +kernel

theorem letterPage_sample :
    InPlace (tracedLines {} contactEngine (pixelOrigin (3 / 2)) letterPage (.single .rapid) 1
        letterResult) letterPage 1 (3 / 2) contactResult ↔
      StripsAtOrigin {} contactEngine (pixelOrigin (3 / 2)) letterPage (.single .rapid) 1
        letterResult :=
  tiled_coordinates_iff {} contactEngine (pixelOrigin (3 / 2)) letterPage (.single .rapid) 1 (3 / 2)
    (by decide +kernel) ocrPageImage_letterPage

/-- The line of the second strip keeps its box, 348 pixels above its place, so that redaction
paints over another part of the page and reports the image as clean. -/
theorem strip_line_misplaced :
    (ocrPageImage {} contactEngine letterPage (.single .rapid) 1).1 = some contactResult ∧
      ¬InPlace (tracedLines {} contactEngine (pixelOrigin (3 / 2)) letterPage (.single .rapid) 1
        letterResult) letterPage 1 (3 / 2) contactResult ∧
      tracedLines {} contactEngine (pixelOrigin (3 / 2)) letterPage (.single .rapid) 1
        letterResult = [((0, 0), titleLine), ((0, 348), contactLine)] ∧
      (escalationRedaction letterPage 1 contactResult.lines).clean = true ∧
      ∀ r ∈ paintedRects 918 1188 contactResult.lines (8 / 100) (8 / 100), ¬r.Contains 20 368 := by
  have htraced : tracedLines {} contactEngine (pixelOrigin (3 / 2)) letterPage (.single .rapid) 1
      letterResult = [((0, 0), titleLine), ((0, 348), contactLine)] := by
    decide +kernel
  refine ⟨ocrPageImage_letterPage, fun h => ?_, htraced, by decide +kernel, by decide +kernel⟩
  rw [htraced] at h
  exact absurd ((inPlace_iff rfl).1 h ((0, 348), contactLine) (by simp) rfl) (by decide)

end BidProof
