import Mathlib.Algebra.BigOperators.Group.List.Basic
import Mathlib.Algebra.Order.BigOperators.Group.List
import Mathlib.Algebra.Order.Field.Rat
import Mathlib.Tactic.Linarith
import Mathlib.Tactic.Positivity

/-!
# Lines and blocks on pages

A line of text is a sequence of glyphs, each in a box of its own: `Line.Inside` says that every box
lies in the page, and `inside_iff` reduces it to the width of the line and its height on the page.
A `stack` puts blocks below each other and opens a page for a block that does not fit; blocks never
meet (`pairwise_stack`).  Lengths are rational, and a position on a page is measured from its top
left corner.
-/

namespace Typeset

/-- What a font says of its glyphs, in units of the font size. -/
structure Font where
  advance : Char → ℚ
  ascent : ℚ
  descent : ℚ
  advance_nonneg (c : Char) : 0 ≤ advance c
  advance_le_one (c : Char) : advance c ≤ 1
  ascent_mem : 0 ≤ ascent ∧ ascent ≤ 1
  descent_mem : 0 ≤ descent ∧ descent ≤ 1

/-- The width of a text. -/
def Font.width (font : Font) (text : List Char) : ℚ := (text.map font.advance).sum

/-- A text whose first glyph stands at `(x, y)`, on a base line of its own. -/
structure Line where
  page : ℕ
  x : ℚ
  y : ℚ
  fontsize : ℚ
  text : List Char
  deriving DecidableEq

structure Box where
  left : ℚ
  top : ℚ
  right : ℚ
  bottom : ℚ
  deriving DecidableEq

structure Box.Within (box : Box) (width height : ℚ) : Prop where
  left : 0 ≤ box.left
  top : 0 ≤ box.top
  right : box.right ≤ width
  bottom : box.bottom ≤ height

/-- The box of the glyph number `i`. -/
def Line.glyph (font : Font) (line : Line) (i : ℕ) : Box where
  left := line.x + line.fontsize * font.width (line.text.take i)
  top := line.y - line.fontsize * font.ascent
  right := line.x + line.fontsize * font.width (line.text.take (i + 1))
  bottom := line.y + line.fontsize * font.descent

/-- Every glyph lies in the page. -/
def Line.Inside (font : Font) (width height : ℚ) (line : Line) : Prop :=
  ∀ i < line.text.length, (line.glyph font i).Within width height

section line

variable {font : Font} {width height : ℚ} {line : Line}

theorem Font.width_nonneg (font : Font) (text : List Char) : 0 ≤ font.width text := by
  refine List.sum_nonneg fun x hx => ?_
  obtain ⟨c, -, rfl⟩ := List.mem_map.1 hx
  exact font.advance_nonneg c

theorem Font.width_append (font : Font) (s t : List Char) :
    font.width (s ++ t) = font.width s + font.width t := by
  rw [width, List.map_append, List.sum_append, width, width]

/-- No text is wider than it has characters. -/
theorem Font.width_le_length (font : Font) (text : List Char) : font.width text ≤ text.length := by
  induction text with
  | nil => simp [width]
  | cons c text ih =>
    have hc := font.advance_le_one c
    rw [width, List.map_cons, List.sum_cons, ← width, List.length_cons]
    push_cast
    linarith

theorem Font.width_take_le (font : Font) (text : List Char) (i : ℕ) :
    font.width (text.take i) ≤ font.width text := by
  conv_rhs => rw [← List.take_append_drop i text, width_append]
  have hrest := font.width_nonneg (text.drop i)
  linarith

/-- The glyphs of a line that begins in the page lie in it when its last one does. -/
theorem Line.inside_iff (hx : 0 ≤ line.x) (hsize : 0 ≤ line.fontsize)
    (htop : line.fontsize * font.ascent ≤ line.y) (hne : line.text ≠ []) :
    line.Inside font width height ↔
      line.x + line.fontsize * font.width line.text ≤ width ∧
        line.y + line.fontsize * font.descent ≤ height := by
  constructor
  · intro h
    have hpos : 0 < line.text.length := List.length_pos_of_ne_nil hne
    have hlast := h (line.text.length - 1) (Nat.sub_one_lt_of_lt hpos)
    refine ⟨?_, hlast.bottom⟩
    have hright := hlast.right
    rwa [glyph, Nat.sub_add_cancel hpos, List.take_length] at hright
  · rintro ⟨hright, hbottom⟩ i -
    have hleft := font.width_nonneg (line.text.take i)
    have hprefix := mul_le_mul_of_nonneg_left (font.width_take_le line.text (i + 1)) hsize
    refine ⟨add_nonneg hx (mul_nonneg hsize hleft), sub_nonneg.2 htop, ?_, hbottom⟩
    change line.x + line.fontsize * font.width (line.text.take (i + 1)) ≤ width
    linarith

end line

/-! ## Stacks -/

/-- Where a block stands: its page and the height at which it begins. -/
structure Slot where
  page : ℕ
  y : ℚ
  height : ℚ
  deriving DecidableEq

/-- Blocks of these heights below each other, a `gap` apart.  A block that would end below `limit`
begins at `top` of a new page. -/
def stack (limit top gap : ℚ) : ℕ → ℚ → List ℚ → List Slot
  | _, _, [] => []
  | page, y, height :: heights =>
    if limit < y + height then
      ⟨page + 1, top, height⟩ :: stack limit top gap (page + 1) (top + (height + gap)) heights
    else ⟨page, y, height⟩ :: stack limit top gap page (y + (height + gap)) heights

/-- The block `b` stands on a later page than `a`, or at least a gap below it. -/
def Slot.Before (gap : ℚ) (a b : Slot) : Prop :=
  a.page < b.page ∨ a.page = b.page ∧ a.y + (a.height + gap) ≤ b.y

section stack

variable {limit top gap : ℚ}

/-- The rest of a stack stands at `y` or below, or on a later page. -/
theorem below_of_mem_stack (hgap : 0 ≤ gap) {heights : List ℚ} (hheights : ∀ h ∈ heights, 0 ≤ h)
    {page : ℕ} {y : ℚ} {slot : Slot} (hslot : slot ∈ stack limit top gap page y heights) :
    page < slot.page ∨ page = slot.page ∧ y ≤ slot.y := by
  induction heights generalizing page y with
  | nil => exact absurd hslot List.not_mem_nil
  | cons height heights ih =>
    obtain ⟨hheight, hrest⟩ := List.forall_mem_cons.1 hheights
    simp only [stack] at hslot
    split_ifs at hslot with hfull
    · refine Or.inl ?_
      rcases List.mem_cons.1 hslot with rfl | hslot
      · exact Nat.lt_succ_self page
      · rcases ih hrest hslot with h | ⟨h, -⟩ <;> omega
    · rcases List.mem_cons.1 hslot with rfl | hslot
      · exact Or.inr ⟨rfl, le_rfl⟩
      · rcases ih hrest hslot with h | ⟨h, hy⟩
        · exact Or.inl h
        · exact Or.inr ⟨h, by linarith⟩

theorem pairwise_stack (hgap : 0 ≤ gap) {heights : List ℚ} (hheights : ∀ h ∈ heights, 0 ≤ h)
    (page : ℕ) (y : ℚ) : (stack limit top gap page y heights).Pairwise (Slot.Before gap) := by
  induction heights generalizing page y with
  | nil => exact List.Pairwise.nil
  | cons height heights ih =>
    obtain ⟨-, hrest⟩ := List.forall_mem_cons.1 hheights
    simp only [stack]
    split_ifs with hfull
    · exact List.pairwise_cons.2 ⟨fun b hb => below_of_mem_stack hgap hrest hb, ih hrest _ _⟩
    · exact List.pairwise_cons.2 ⟨fun b hb => below_of_mem_stack hgap hrest hb, ih hrest _ _⟩

/-- A block ends above the limit or begins a page. -/
theorem fits_of_mem_stack {heights : List ℚ} {page : ℕ} {y : ℚ} {slot : Slot}
    (hslot : slot ∈ stack limit top gap page y heights) :
    slot.y + slot.height ≤ limit ∨ slot.y = top := by
  induction heights generalizing page y with
  | nil => exact absurd hslot List.not_mem_nil
  | cons height heights ih =>
    simp only [stack] at hslot
    split_ifs at hslot with hfull
    · rcases List.mem_cons.1 hslot with rfl | hslot
      · exact Or.inr rfl
      · exact ih hslot
    · rcases List.mem_cons.1 hslot with rfl | hslot
      · exact Or.inl (not_lt.1 hfull)
      · exact ih hslot

/-- No block stands above the place where the stack begins, nor above the top of a page. -/
theorem le_of_mem_stack (hgap : 0 ≤ gap) {heights : List ℚ} (hheights : ∀ h ∈ heights, 0 ≤ h)
    {page : ℕ} {y : ℚ} (hy : top ≤ y) {slot : Slot}
    (hslot : slot ∈ stack limit top gap page y heights) : top ≤ slot.y := by
  induction heights generalizing page y with
  | nil => exact absurd hslot List.not_mem_nil
  | cons height heights ih =>
    obtain ⟨hheight, hrest⟩ := List.forall_mem_cons.1 hheights
    simp only [stack] at hslot
    split_ifs at hslot with hfull
    · rcases List.mem_cons.1 hslot with rfl | hslot
      · exact le_rfl
      · exact ih hrest (by linarith) hslot
    · rcases List.mem_cons.1 hslot with rfl | hslot
      · exact hy
      · exact ih hrest (by linarith) hslot

end stack

end Typeset
