import Mathlib.Tactic.Ring
import BidProof.Lib.Words
import BidProof.Report.Pdf

/-!
# What a report cuts off

The pieces of a text are cut by their number of characters, so a piece of wide glyphs may be wider
than the page; the summary never opens a second page, and a block that is taller than a page is not
divided.  Everything else of the layout is sound: a block ends above the lower margin or begins a
page, and two blocks never meet.  `shows_all_text_iff` is the exact condition on the texts of a run.
-/

namespace BidProof.Report

open Storage (LoadedRun)
open Text (isSpace squeeze removeSpace)
open Typeset

/-! ## Pieces -/

theorem clean_ne_nil {c : Char} {value : List Char} (hmem : c ∈ value) (hc : isSpace c = false) :
    clean value ≠ [] := by
  intro h
  have hremove : removeSpace value = [] := by
    rw [← Text.removeSpace_squeeze, ← clean, h]
    rfl
  have hin : c ∈ removeSpace value := List.mem_filter.2 ⟨hmem, by rw [hc]; rfl⟩
  rw [hremove] at hin
  exact List.not_mem_nil hin

theorem wrap_ne_nil (value : List Char) (limit : ℕ) : wrap value limit ≠ [] := by
  simp only [wrap]
  split_ifs with h
  · exact List.cons_ne_nil _ _
  · exact h

theorem length_le_of_mem_wrap {value piece : List Char} {limit : ℕ}
    (h : piece ∈ wrap value limit) : piece.length ≤ limit := by
  simp only [wrap] at h
  split_ifs at h
  · rw [List.mem_singleton.1 h]
    exact Nat.zero_le limit
  · obtain ⟨index, -, rfl⟩ := List.mem_map.1 h
    exact List.length_take_le _ _

/-- The pieces of a text that is not blank are not empty. -/
theorem ne_nil_of_mem_wrap {value piece : List Char} {limit : ℕ} (hlimit : 0 < limit)
    (hvalue : clean value ≠ []) (h : piece ∈ wrap value limit) : piece ≠ [] := by
  have hlength : 0 < (clean value).length := List.length_pos_of_ne_nil hvalue
  have hcount : 0 < ((clean value).length + limit - 1) / limit := Nat.div_pos (by omega) hlimit
  simp only [wrap] at h
  split_ifs at h with hnone
  · rw [pieces, List.map_eq_nil_iff, List.range'_eq_nil_iff] at hnone
    omega
  · obtain ⟨index, hindex, rfl⟩ := List.mem_map.1 h
    obtain ⟨i, hi, rfl⟩ := List.mem_range'.1 hindex
    have hin : 0 + limit * i < (clean value).length := by
      have hmul : limit * (((clean value).length + limit - 1) / limit) ≤
          (clean value).length + limit - 1 := Nat.mul_div_le _ _
      have hsucc : limit * (i + 1) ≤ limit * (((clean value).length + limit - 1) / limit) :=
        Nat.mul_le_mul_left _ hi
      rw [Nat.mul_succ] at hsucc
      omega
    refine List.ne_nil_of_length_pos ?_
    rw [List.length_take, List.length_drop]
    omega

theorem clean_summaryLines_ne_nil (run : LoadedRun) {line : List Char}
    (h : line ∈ summaryLines run) : clean line ≠ [] := by
  have hcolon : isSpace '：' = false := by decide
  simp only [summaryLines, figuresLine, List.mem_cons, List.not_mem_nil, or_false] at h
  rcases h with h | h | h | h | h
  all_goals
    rw [h]
    refine clean_ne_nil ?_ hcolon
    simp only [String.toList_append, List.mem_append, or_assoc]
    exact Or.inl (by decide)

theorem clean_blockLines_ne_nil (item : Requirement) {line : List Char}
    (h : line ∈ blockLines item) : clean line ≠ [] := by
  have hbracket : isSpace '[' = false := by decide
  have hcolon : isSpace '：' = false := by decide
  simp only [blockLines, List.mem_cons, List.not_mem_nil, or_false] at h
  rcases h with rfl | rfl | rfl | rfl | rfl
  · refine clean_ne_nil ?_ hbracket
    simp only [String.toList_append, List.mem_append, or_assoc]
    exact Or.inr (Or.inl (by decide))
  all_goals
    refine clean_ne_nil ?_ hcolon
    simp only [String.toList_append, List.mem_append, or_assoc]
    exact Or.inl (by decide)

/-! ## Blocks -/

/-- The boxes that a block fills: its rectangle and its glyphs. -/
def Block.Fills (font : Font) (block : Block) (box : Box) : Prop :=
  box = block.rect ∨ ∃ line ∈ block.lines, ∃ i < line.text.length, box = line.glyph font i

/-- The blocks stand on different pages or below each other. -/
def Block.Apart (font : Font) (a b : Block) : Prop :=
  a.page = b.page → ∀ box box', a.Fills font box → b.Fills font box' → box.bottom < box'.top

def Block.slot (block : Block) : Typeset.Slot := ⟨block.page, block.y, block.block_height⟩

theorem blockHeight_nonneg (texts : List (List Char)) : 0 ≤ blockHeight texts := by
  unfold blockHeight
  positivity

theorem slot_drawBlocks (page : ℕ) (y : ℚ) (items : List Requirement) :
    (drawBlocks page y items).2.map Block.slot =
      stack (PAGE_HEIGHT - 48) 76 7 page y (items.map fun item => blockHeight (wrapped item)) := by
  induction items generalizing page y with
  | nil => rfl
  | cons item items ih =>
    simp only [drawBlocks, stack, List.map_cons, gt_iff_lt]
    split_ifs
    · rw [List.map_cons, ih]
      rfl
    · rw [List.map_cons, ih]
      rfl

theorem exists_of_mem_drawBlocks {page : ℕ} {y : ℚ} {items : List Requirement} {block : Block}
    (h : block ∈ (drawBlocks page y items).2) :
    ∃ item ∈ items, block = drawBlock block.page block.y (wrapped item) := by
  induction items generalizing page y with
  | nil => exact absurd h List.not_mem_nil
  | cons item items ih =>
    simp only [drawBlocks] at h
    split_ifs at h
    all_goals
      rcases List.mem_cons.1 h with rfl | h
      · exact ⟨item, List.mem_cons_self, rfl⟩
      · obtain ⟨r, hr, hblock⟩ := ih h
        exact ⟨r, List.mem_cons_of_mem _ hr, hblock⟩

/-- Every requirement has a block. -/
theorem exists_drawBlocks {item : Requirement} {items : List Requirement} (h : item ∈ items)
    (page : ℕ) (y : ℚ) :
    ∃ p z, drawBlock p z (wrapped item) ∈ (drawBlocks page y items).2 := by
  induction items generalizing page y with
  | nil => exact absurd h List.not_mem_nil
  | cons r items ih =>
    simp only [drawBlocks]
    rcases List.mem_cons.1 h with rfl | h
    · split_ifs
      · exact ⟨_, _, List.mem_cons_self⟩
      · exact ⟨_, _, List.mem_cons_self⟩
    · split_ifs
      · obtain ⟨p, z, hmem⟩ := ih h (page + 1) (76 + (blockHeight (wrapped r) + 7))
        exact ⟨p, z, List.mem_cons_of_mem _ hmem⟩
      · obtain ⟨p, z, hmem⟩ := ih h page (y + (blockHeight (wrapped r) + 7))
        exact ⟨p, z, List.mem_cons_of_mem _ hmem⟩

/-- Where a block stands: it ends above the lower margin or begins a page. -/
theorem place_of_mem_drawBlocks {page : ℕ} {y : ℚ} (hy : 76 ≤ y) {items : List Requirement}
    {block : Block} (h : block ∈ (drawBlocks page y items).2) :
    76 ≤ block.y ∧ (block.y + block.block_height ≤ 794 ∨ block.y = 76) := by
  have hslot := List.mem_map_of_mem (f := Block.slot) h
  rw [slot_drawBlocks] at hslot
  have hheights : ∀ height ∈ items.map fun item => blockHeight (wrapped item), 0 ≤ height := by
    intro height hmem
    obtain ⟨item, -, rfl⟩ := List.mem_map.1 hmem
    exact blockHeight_nonneg _
  refine ⟨le_of_mem_stack (by norm_num) hheights hy hslot, ?_⟩
  have hfits := fits_of_mem_stack hslot
  norm_num [PAGE_HEIGHT] at hfits
  exact hfits

theorem mem_drawLines {page : ℕ} {y : ℚ} {texts : List (List Char)} {line : Line} :
    line ∈ drawLines page y texts ↔ ∃ i, ∃ h : i < texts.length,
      line = ⟨page, MARGIN + 8, y + i * 12, blockFontsize i, texts[i]⟩ := by
  rw [drawLines, List.mem_mapIdx]
  exact exists₂_congr fun _ _ => eq_comm

theorem blockFontsize_mem (i : ℕ) : 0 ≤ blockFontsize i ∧ blockFontsize i ≤ 19 / 2 := by
  unfold blockFontsize
  split_ifs <;> norm_num

/-- No part of a font reaches further than its size. -/
theorem reach_le {size part : ℚ} (hsize : 0 ≤ size ∧ size ≤ 19 / 2) (hpart : 0 ≤ part ∧ part ≤ 1) :
    0 ≤ size * part ∧ size * part ≤ 19 / 2 := by
  refine ⟨mul_nonneg hsize.1 hpart.1, ?_⟩
  calc size * part ≤ size * 1 := mul_le_mul_of_nonneg_left hpart.2 hsize.1
    _ ≤ 19 / 2 := by rw [mul_one]; exact hsize.2

/-- A block and its glyphs, from above to below. -/
theorem bounds_of_fills {font : Font} {page : ℕ} {y : ℚ} {texts : List (List Char)} {box : Box}
    (h : (drawBlock page y texts).Fills font box) :
    y - 19 / 2 ≤ box.top ∧ box.bottom ≤ y + blockHeight texts - 4 := by
  rcases h with rfl | ⟨line, hline, i, -, rfl⟩
  · refine ⟨?_, le_rfl⟩
    change y - 19 / 2 ≤ y - 4
    linarith
  · obtain ⟨k, hk, rfl⟩ := mem_drawLines.1 hline
    have hascent := reach_le (blockFontsize_mem k) font.ascent_mem
    have hdescent := reach_le (blockFontsize_mem k) font.descent_mem
    have hfirst : (0 : ℚ) ≤ k := Nat.cast_nonneg k
    have hlast : (k : ℚ) + 1 ≤ texts.length := by exact_mod_cast hk
    simp only [Line.glyph, blockHeight]
    constructor <;> linarith

theorem pairwise_apart (font : Font) (page : ℕ) (y : ℚ) (items : List Requirement) :
    (drawBlocks page y items).2.Pairwise (Block.Apart font) := by
  have hheights : ∀ height ∈ items.map fun item => blockHeight (wrapped item), 0 ≤ height := by
    intro height hmem
    obtain ⟨item, -, rfl⟩ := List.mem_map.1 hmem
    exact blockHeight_nonneg _
  have hbefore : (stack (PAGE_HEIGHT - 48) 76 7 page y
      (items.map fun item => blockHeight (wrapped item))).Pairwise (Typeset.Slot.Before 7) :=
    pairwise_stack (by norm_num) hheights page y
  rw [← slot_drawBlocks, List.pairwise_map] at hbefore
  refine hbefore.imp_of_mem fun {a b} ha hb hab hpage box box' hbox hbox' => ?_
  obtain ⟨r, -, hr⟩ := exists_of_mem_drawBlocks ha
  obtain ⟨t, -, ht⟩ := exists_of_mem_drawBlocks hb
  rw [hr] at hbox
  rw [ht] at hbox'
  have hbottom := (bounds_of_fills hbox).2
  have htop := (bounds_of_fills hbox').1
  have hheight : a.block_height = blockHeight (wrapped r) := congrArg Block.block_height hr
  rcases hab with hlt | ⟨-, hgap⟩
  · exact absurd hpage (Nat.ne_of_lt hlt)
  · change a.y + (a.block_height + 7) ≤ b.y at hgap
    rw [hheight] at hgap
    linarith

section block

variable {font : Font} {y : ℚ} {texts : List (List Char)}

/-- A piece of a block reaches to the right edge only when it is the first one, which is set in a
larger size. -/
theorem block_width_iff (hne : texts ≠ []) (hshort : ∀ text ∈ texts, text.length ≤ 62) :
    (∀ i, ∀ h : i < texts.length,
        MARGIN + 8 + blockFontsize i * font.width texts[i] ≤ PAGE_WIDTH) ↔
      19 / 2 * font.width (texts.head hne) ≤ 543 := by
  have hfirst : MARGIN + 8 + blockFontsize 0 * font.width (texts.head hne) ≤ PAGE_WIDTH ↔
      19 / 2 * font.width (texts.head hne) ≤ 543 := by
    norm_num [MARGIN, PAGE_WIDTH, blockFontsize]
    constructor <;> intro h <;> linarith
  rw [← hfirst]
  constructor
  · intro h
    rw [List.head_eq_getElem hne]
    exact h 0 (List.length_pos_of_ne_nil hne)
  · intro h i hi
    rcases Nat.eq_zero_or_pos i with rfl | hpos
    · rwa [← List.head_eq_getElem hne]
    · have hsize : blockFontsize i = 17 / 2 := if_neg (Nat.pos_iff_ne_zero.1 hpos)
      have hlength := font.width_le_length texts[i]
      have hpiece : (texts[i].length : ℚ) ≤ 62 := by
        exact_mod_cast hshort _ (List.getElem_mem hi)
      rw [hsize]
      norm_num [MARGIN, PAGE_WIDTH]
      linarith

/-- A block at the top of a page has room for 64 pieces, any other has ended before. -/
theorem block_height_iff (hplace : 76 ≤ y ∧ (y + blockHeight texts ≤ 794 ∨ y = 76)) :
    (∀ i < texts.length, y + i * 12 + blockFontsize i * font.descent ≤ PAGE_HEIGHT) ↔
      texts.length ≤ 64 := by
  obtain ⟨htop, hend⟩ := hplace
  have hpage : PAGE_HEIGHT = 842 := rfl
  rw [hpage]
  constructor
  · intro h
    by_contra hmany
    have hlast := h 64 (by omega)
    have hdescent := reach_le (blockFontsize_mem 64) font.descent_mem
    norm_num at hlast
    linarith
  · intro hcount i hi
    have hdescent := reach_le (blockFontsize_mem i) font.descent_mem
    have hlast : (i : ℚ) + 1 ≤ texts.length := by exact_mod_cast hi
    rcases hend with hend | rfl
    · rw [blockHeight] at hend
      linarith
    · have hcount' : (texts.length : ℚ) ≤ 64 := by exact_mod_cast hcount
      rcases Nat.eq_zero_or_pos i with rfl | hpos
      · norm_num at hdescent ⊢
        linarith
      · have hsize : blockFontsize i = 17 / 2 := if_neg (Nat.pos_iff_ne_zero.1 hpos)
        have hsmall := font.descent_mem.2
        rw [hsize]
        linarith

/-- The glyphs of a block lie in the page when its first piece does and it has no more pieces than
fit on a page. -/
theorem block_inside_iff {page : ℕ} (hne : texts ≠ [])
    (htexts : ∀ text ∈ texts, text ≠ [] ∧ text.length ≤ 62)
    (hplace : 76 ≤ y ∧ (y + blockHeight texts ≤ 794 ∨ y = 76)) :
    (∀ line ∈ drawLines page y texts, line.Inside font PAGE_WIDTH PAGE_HEIGHT) ↔
      19 / 2 * font.width (texts.head hne) ≤ 543 ∧ texts.length ≤ 64 := by
  have hinside (i : ℕ) (h : i < texts.length) :
      Line.Inside font PAGE_WIDTH PAGE_HEIGHT
          ⟨page, MARGIN + 8, y + i * 12, blockFontsize i, texts[i]⟩ ↔
        MARGIN + 8 + blockFontsize i * font.width texts[i] ≤ PAGE_WIDTH ∧
          y + i * 12 + blockFontsize i * font.descent ≤ PAGE_HEIGHT := by
    have hascent := reach_le (blockFontsize_mem i) font.ascent_mem
    have hfirst : (0 : ℚ) ≤ i := Nat.cast_nonneg i
    refine Line.inside_iff (by norm_num [MARGIN]) (blockFontsize_mem i).1 ?_
      (htexts _ (List.getElem_mem h)).1
    change blockFontsize i * font.ascent ≤ y + i * 12
    linarith [hplace.1]
  rw [← block_width_iff hne fun text h => (htexts text h).2, ← block_height_iff hplace]
  constructor
  · intro h
    have hline (i : ℕ) (hi : i < texts.length) :=
      (hinside i hi).1 (h _ (mem_drawLines.2 ⟨i, hi, rfl⟩))
    exact ⟨fun i hi => (hline i hi).1, fun i hi => (hline i hi).2⟩
  · rintro ⟨hwidth, hheight⟩ line hline
    obtain ⟨i, hi, rfl⟩ := mem_drawLines.1 hline
    exact (hinside i hi).2 ⟨hwidth i hi, hheight i hi⟩

end block

/-! ## The summary -/

section summary

variable {page : ℕ} {fontsize line_height : ℚ}

theorem writeWrapped_append (texts texts' : List (List Char)) (y : ℚ) :
    writeWrapped page fontsize line_height (texts ++ texts') y =
      ((writeWrapped page fontsize line_height texts y).1 ++
          (writeWrapped page fontsize line_height texts'
            (writeWrapped page fontsize line_height texts y).2).1,
        (writeWrapped page fontsize line_height texts'
          (writeWrapped page fontsize line_height texts y).2).2) := by
  induction texts generalizing y with
  | nil => rfl
  | cons text texts ih => simp only [List.cons_append, writeWrapped, ih]

theorem writeWrapped_snd (texts : List (List Char)) (y : ℚ) :
    (writeWrapped page fontsize line_height texts y).2 = y + texts.length * line_height := by
  induction texts generalizing y with
  | nil => simp [writeWrapped]
  | cons text texts ih =>
    simp only [writeWrapped, ih, List.length_cons]
    push_cast
    ring

theorem mem_writeWrapped {texts : List (List Char)} {y : ℚ} {line : Line} :
    line ∈ (writeWrapped page fontsize line_height texts y).1 ↔ ∃ i, ∃ h : i < texts.length,
      line = ⟨page, MARGIN, y + i * line_height, fontsize, texts[i]⟩ := by
  induction texts generalizing y with
  | nil => simp [writeWrapped]
  | cons text texts ih =>
    simp only [writeWrapped, List.mem_cons, ih]
    constructor
    · rintro (rfl | ⟨i, hi, rfl⟩)
      · exact ⟨0, Nat.succ_pos _, by simp⟩
      · refine ⟨i + 1, Nat.succ_lt_succ hi, ?_⟩
        rw [List.getElem_cons_succ]
        push_cast
        congr 1
        ring
    · rintro ⟨i, hi, rfl⟩
      cases i with
      | zero => exact Or.inl (by simp)
      | succ i =>
        refine Or.inr ⟨i, Nat.lt_of_succ_lt_succ hi, ?_⟩
        rw [List.getElem_cons_succ]
        push_cast
        congr 1
        ring

end summary

/-- The pieces of the summary. -/
def summaryPieces (run : LoadedRun) : List (List Char) :=
  (summaryLines run).flatMap fun line => wrap line 68

theorem writeSummary_eq (lines : List (List Char)) (y : ℚ) :
    writeSummary lines y =
      writeWrapped 0 (21 / 2) 14 (lines.flatMap fun line => wrap line 68) y := by
  induction lines generalizing y with
  | nil => rfl
  | cons line lines ih =>
    rw [List.flatMap_cons, writeWrapped_append, ← ih]
    rfl

/-- The glyphs of the summary lie in the page when no piece is too wide and the last piece is not
too low. -/
theorem summary_inside_iff {font : Font} {texts : List (List Char)} (hne : texts ≠ [])
    (htexts : ∀ text ∈ texts, text ≠ []) :
    (∀ line ∈ (writeWrapped 0 (21 / 2) 14 texts 82).1,
        line.Inside font PAGE_WIDTH PAGE_HEIGHT) ↔
      (∀ text ∈ texts, 21 / 2 * font.width text ≤ 551) ∧
        14 * texts.length + 21 / 2 * font.descent ≤ 774 := by
  have hpos : 0 < texts.length := List.length_pos_of_ne_nil hne
  have hinside (i : ℕ) (h : i < texts.length) :
      Line.Inside font PAGE_WIDTH PAGE_HEIGHT ⟨0, MARGIN, 82 + i * 14, 21 / 2, texts[i]⟩ ↔
        21 / 2 * font.width texts[i] ≤ 551 ∧ 14 * (i + 1) + 21 / 2 * font.descent ≤ 774 := by
    have hascent := font.ascent_mem.2
    have hfirst : (0 : ℚ) ≤ i := Nat.cast_nonneg i
    rw [Line.inside_iff (by norm_num [MARGIN]) (by norm_num) ?_ (htexts _ (List.getElem_mem h))]
    · norm_num [MARGIN, PAGE_WIDTH, PAGE_HEIGHT]
      refine and_congr ⟨fun h => ?_, fun h => ?_⟩ ⟨fun h => ?_, fun h => ?_⟩ <;> linarith
    · change 21 / 2 * font.ascent ≤ 82 + i * 14
      linarith
  constructor
  · intro h
    have hline (i : ℕ) (hi : i < texts.length) :=
      (hinside i hi).1 (h _ (mem_writeWrapped.2 ⟨i, hi, rfl⟩))
    constructor
    · intro text htext
      obtain ⟨i, hi, rfl⟩ := List.mem_iff_getElem.1 htext
      exact (hline i hi).1
    · have hlast := (hline (texts.length - 1) (by omega)).2
      have hcast : (((texts.length - 1 : ℕ) : ℚ) + 1) = texts.length := by
        exact_mod_cast Nat.sub_add_cancel hpos
      rwa [hcast] at hlast
  · rintro ⟨hwidth, hheight⟩ line hline
    obtain ⟨i, hi, rfl⟩ := mem_writeWrapped.1 hline
    have hlast : (i : ℚ) + 1 ≤ texts.length := by exact_mod_cast hi
    exact (hinside i hi).2 ⟨hwidth _ (List.getElem_mem hi), by linarith⟩

/-! ## The whole report -/

/-- Every glyph of the summary and of the blocks lies in the page, and no two blocks meet. -/
structure ShowsAllText (font : Font) (report : PdfReport) : Prop where
  summary : ∀ line ∈ report.summary, line.Inside font PAGE_WIDTH PAGE_HEIGHT
  blocks : ∀ block ∈ report.blocks, ∀ line ∈ block.lines, line.Inside font PAGE_WIDTH PAGE_HEIGHT
  apart : report.blocks.Pairwise (Block.Apart font)

/-- The texts of a run fit: no piece of the summary is wider than the page from the margin on, the
summary ends on the page, and every block begins with a piece that is not too wide and has at most
64 pieces. -/
structure Fits (font : Font) (run : LoadedRun) : Prop where
  summary_width : ∀ text ∈ summaryPieces run, 21 / 2 * font.width text ≤ 551
  summary_height : 14 * (summaryPieces run).length + 21 / 2 * font.descent ≤ 774
  first_width : ∀ item ∈ run.requirements, ∀ text ∈ (wrapped item).head?,
    19 / 2 * font.width text ≤ 543
  pieces : ∀ item ∈ run.requirements, (wrapped item).length ≤ 64

section report

variable {font : Font} {run : LoadedRun}

theorem summaryPieces_ne_nil (run : LoadedRun) :
    summaryPieces run ≠ [] ∧ ∀ text ∈ summaryPieces run, text ≠ [] := by
  constructor
  · intro h
    have hfirst := List.flatMap_eq_nil_iff.1 h _ List.mem_cons_self
    exact wrap_ne_nil _ _ hfirst
  · intro text htext
    obtain ⟨line, hline, hpiece⟩ := List.mem_flatMap.1 htext
    exact ne_nil_of_mem_wrap (by norm_num) (clean_summaryLines_ne_nil run hline) hpiece

theorem wrapped_ne_nil (item : Requirement) : wrapped item ≠ [] := by
  intro h
  exact wrap_ne_nil _ _ (List.flatMap_eq_nil_iff.1 h _ List.mem_cons_self)

theorem of_mem_wrapped {item : Requirement} {text : List Char} (h : text ∈ wrapped item) :
    text ≠ [] ∧ text.length ≤ 62 := by
  obtain ⟨line, hline, hpiece⟩ := List.mem_flatMap.1 h
  exact ⟨ne_nil_of_mem_wrap (by norm_num) (clean_blockLines_ne_nil item hline) hpiece,
    length_le_of_mem_wrap hpiece⟩

theorem summary_buildPdfReport (run : LoadedRun) (generated_at : String) :
    (buildPdfReport run generated_at).summary =
      (writeWrapped 0 (21 / 2) 14 (summaryPieces run) 82).1 := by
  rw [summaryPieces, ← writeSummary_eq, buildPdfReport]

/-- The blocks begin below the summary. -/
theorem exists_blocks_buildPdfReport (run : LoadedRun) (generated_at : String) :
    ∃ y, 76 ≤ y ∧
      (buildPdfReport run generated_at).blocks = (drawBlocks 0 y run.requirements).2 := by
  have hcount : (0 : ℚ) ≤ (summaryPieces run).length := Nat.cast_nonneg _
  have hend : (writeSummary (summaryLines run) 82).2 = 82 + (summaryPieces run).length * 14 := by
    rw [writeSummary_eq, writeWrapped_snd]
    rfl
  refine ⟨(writeSummary (summaryLines run) 82).2 + 8, by linarith, ?_⟩
  rw [buildPdfReport]

theorem drawn_inside_iff {y : ℚ} (hy : 76 ≤ y) (items : List Requirement) :
    (∀ block ∈ (drawBlocks 0 y items).2, ∀ line ∈ block.lines,
        line.Inside font PAGE_WIDTH PAGE_HEIGHT) ↔
      ∀ item ∈ items, (∀ text ∈ (wrapped item).head?, 19 / 2 * font.width text ≤ 543) ∧
        (wrapped item).length ≤ 64 := by
  have hblock {page : ℕ} {z : ℚ} {item : Requirement}
      (h : drawBlock page z (wrapped item) ∈ (drawBlocks 0 y items).2) :
      (∀ line ∈ drawLines page z (wrapped item), line.Inside font PAGE_WIDTH PAGE_HEIGHT) ↔
        (∀ text ∈ (wrapped item).head?, 19 / 2 * font.width text ≤ 543) ∧
          (wrapped item).length ≤ 64 := by
    have hne := wrapped_ne_nil item
    have hplace : 76 ≤ z ∧ (z + blockHeight (wrapped item) ≤ 794 ∨ z = 76) :=
      place_of_mem_drawBlocks hy h
    rw [block_inside_iff hne (fun _ => of_mem_wrapped) hplace, List.head?_eq_some_head hne]
    simp
  constructor
  · intro h item hitem
    obtain ⟨page, z, hmem⟩ := exists_drawBlocks hitem 0 y
    exact (hblock hmem).1 (h _ hmem)
  · intro h block hmem
    obtain ⟨item, hitem, hdrawn⟩ := exists_of_mem_drawBlocks hmem
    rw [hdrawn] at hmem ⊢
    exact (hblock hmem).2 (h item hitem)

theorem summary_inside_iff_fits (generated_at : String) :
    (∀ line ∈ (buildPdfReport run generated_at).summary,
        line.Inside font PAGE_WIDTH PAGE_HEIGHT) ↔
      (∀ text ∈ summaryPieces run, 21 / 2 * font.width text ≤ 551) ∧
        14 * (summaryPieces run).length + 21 / 2 * font.descent ≤ 774 := by
  obtain ⟨hne, htexts⟩ := summaryPieces_ne_nil run
  rw [summary_buildPdfReport, summary_inside_iff hne htexts]

end report

/-- A report shows all its text exactly when the texts of the run fit. -/
theorem shows_all_text_iff (font : Font) (run : LoadedRun) (generated_at : String) :
    ShowsAllText font (buildPdfReport run generated_at) ↔ Fits font run := by
  obtain ⟨y, hy, hblocks⟩ := exists_blocks_buildPdfReport run generated_at
  constructor
  · intro h
    obtain ⟨hwidth, hheight⟩ := (summary_inside_iff_fits generated_at).1 h.summary
    have hdrawn := (drawn_inside_iff hy run.requirements).1 (hblocks ▸ h.blocks)
    exact ⟨hwidth, hheight, fun item hitem => (hdrawn item hitem).1,
      fun item hitem => (hdrawn item hitem).2⟩
  · intro h
    refine ⟨(summary_inside_iff_fits generated_at).2 ⟨h.summary_width, h.summary_height⟩, ?_, ?_⟩
    · rw [hblocks]
      exact (drawn_inside_iff hy run.requirements).2 fun item hitem =>
        ⟨h.first_width item hitem, h.pieces item hitem⟩
    · rw [hblocks]
      exact pairwise_apart font 0 y run.requirements

/-- A font with full width glyphs for everything above the Latin alphabets. -/
def sampleFont : Font where
  advance c := if c.toNat < 0x2E80 then 1 / 2 else 1
  ascent := 22 / 25
  descent := 3 / 25
  advance_nonneg c := by split_ifs <;> norm_num
  advance_le_one c := by split_ifs <;> norm_num
  ascent_mem := by norm_num
  descent_mem := by norm_num

/-- A run of a tender whose name has sixty Chinese characters. -/
def sampleLongName : Run :=
  createRun { sampleScan with tender_filename := String.ofList (List.replicate 60 '标') }

/-- The first line of the summary is cut off at the right edge of the page. -/
theorem long_name_cut_off :
    ¬ ShowsAllText sampleFont (buildPdfReport (Storage.loaded sampleLongName) "") := by
  intro h
  have hwidth := ((summary_inside_iff_fits "").1 h.summary).1
  have hwide : (summaryPieces (Storage.loaded sampleLongName)).any (fun text =>
      551 < 21 / 2 * sampleFont.width text) = true := by
    decide +kernel
  obtain ⟨text, htext, hcut⟩ := List.any_eq_true.1 hwide
  exact absurd (hwidth text htext) (not_le.2 (of_decide_eq_true hcut))

end BidProof.Report
