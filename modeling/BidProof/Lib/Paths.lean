import Mathlib.Data.List.DropRight
import Mathlib.Data.Nat.Notation

/-!
# Paths

POSIX paths as lists of characters, as `pathlib` reads them: `name` is the last part, `parent` the
directory of a path that ends in a name, and `relativeTo` says that a path lies under a directory.
A name has no slash (`slash_not_mem_name`), so the parent of a name joined to a directory is that
directory (`parent_join`), and the joined path lies under it, and under no other directory with the
same parent (`eq_of_relativeTo`).

`pad` writes a number with leading zeros; it determines the number, also inside a name where a
character other than a digit follows (`pad_append_inj`).
-/

namespace Paths

/-! ## Parts -/

/-- `Path(path).name` -/
def name (path : List Char) : List Char :=
  ((path.splitOn '/').filter fun part => part ≠ [] && part ≠ ['.']).getLastD []

/-- `directory / name` -/
def join (directory name : List Char) : List Char := directory ++ '/' :: name

/-- `Path(path).parent` -/
def parent (path : List Char) : List Char := (path.rdropWhile (· ≠ '/')).dropLast

/-- `path.relative_to(directory)` does not raise. -/
def relativeTo (path directory : List Char) : Bool :=
  path = directory || (directory ++ ['/']).isPrefixOf path

/-- `Path(path).suffix` -/
def suffix (path : List Char) : List Char :=
  let stem := (name path).rdropWhile (· ≠ '.')
  let extension := (name path).rtakeWhile (· ≠ '.')
  if stem.length ≤ 1 ∨ extension = [] then [] else '.' :: extension

theorem not_mem_of_mem_splitOn {sep : Char} {path : List Char} :
    ∀ part ∈ path.splitOn sep, sep ∉ part := by
  induction path with
  | nil => simp
  | cons c path ih =>
    intro part hpart
    rw [List.splitOn_cons_eq_if_modifyHead] at hpart
    split_ifs at hpart with hc
    · rcases List.mem_cons.1 hpart with rfl | hpart
      · simp
      · exact ih part hpart
    · cases hs : path.splitOn sep with
      | nil => exact absurd hs (List.splitOn_ne_nil sep path)
      | cons first rest =>
        rw [hs, List.modifyHead_cons] at hpart
        rcases List.mem_cons.1 hpart with rfl | hpart
        · have hfirst := ih first (hs ▸ List.mem_cons_self)
          rintro (_ | ⟨_, hmem⟩)
          · simp at hc
          · exact hfirst hmem
        · exact ih part (hs ▸ List.mem_cons_of_mem _ hpart)

theorem slash_not_mem_name (path : List Char) : '/' ∉ name path := by
  unfold name
  rw [List.getLastD_eq_getLast?]
  cases hlast : ((path.splitOn '/').filter fun part => part ≠ [] && part ≠ ['.']).getLast? with
  | none => simp
  | some part =>
    exact not_mem_of_mem_splitOn part (List.mem_of_mem_filter (List.mem_of_getLast? hlast))

variable {directory n : List Char}

/-- A path without a slash is its own name. -/
theorem name_eq_self (h : '/' ∉ n) (hn : n ≠ []) (hd : n ≠ ['.']) : name n = n := by
  unfold name
  rw [List.splitOn_eq_singleton h]
  simp [hn, hd]

theorem parent_join (h : '/' ∉ n) : parent (join directory n) = directory := by
  have hrev : (join directory n).reverse = n.reverse ++ '/' :: directory.reverse := by
    simp [join]
  have hkeep : ∀ c ∈ n.reverse, decide (c ≠ '/') = true := by
    intro c hc
    rw [decide_eq_true_iff]
    rintro rfl
    exact h (List.mem_reverse.1 hc)
  rw [parent, List.rdropWhile, hrev, List.dropWhile_append_of_pos hkeep]
  simp

/-- A part between separators is a part of the text. -/
theorem infix_of_mem_splitOn {sep : Char} {part path : List Char} (h : part ∈ path.splitOn sep) :
    part <:+: path := by
  have hin : ∀ parts : List (List Char), part ∈ parts → part <:+: [sep].intercalate parts := by
    intro parts hparts
    induction parts with
    | nil => cases hparts
    | cons first rest ih =>
      cases rest with
      | nil =>
        have hpart : part = [sep].intercalate [first] := by
          rw [List.mem_singleton.1 hparts, List.intercalate_singleton]
        exact hpart ▸ List.infix_rfl
      | cons second rest =>
        rw [List.intercalate_cons_cons]
        rcases List.mem_cons.1 hparts with rfl | hparts
        · exact ((List.prefix_append _ _).trans (List.prefix_append _ _)).isInfix
        · exact (ih hparts).trans (List.suffix_append _ _).isInfix
  have hpath := hin _ h
  rwa [List.intercalate_splitOn] at hpath

/-- The name of a path is a part of it. -/
theorem name_infix (path : List Char) : name path <:+: path := by
  unfold name
  rw [List.getLastD_eq_getLast?]
  cases hlast : ((path.splitOn '/').filter fun part => part ≠ [] && part ≠ ['.']).getLast? with
  | none => exact List.nil_infix
  | some part =>
    exact infix_of_mem_splitOn (List.mem_of_mem_filter (List.mem_of_getLast? hlast))

theorem name_join (h : '/' ∉ n) (hn : n ≠ []) (hd : n ≠ ['.']) : name (join directory n) = n := by
  unfold name join
  rw [List.splitOn_append_cons_self, List.splitOn_eq_singleton h, List.filter_append]
  simp [hn, hd]

/-! ## Suffixes -/

variable {path stem extension : List Char}

theorem suffix_of_name_eq (h : name path = stem ++ '.' :: extension) (he : '.' ∉ extension) :
    suffix path = if stem = [] ∨ extension = [] then [] else '.' :: extension := by
  have hkeep : ∀ c ∈ extension.reverse, decide (c ≠ '.') = true := by
    intro c hc
    rw [decide_eq_true_iff]
    rintro rfl
    exact he (List.mem_reverse.1 hc)
  have hrev : (name path).reverse = extension.reverse ++ '.' :: stem.reverse := by
    simp [h]
  have htake : (name path).rtakeWhile (· ≠ '.') = extension := by
    rw [List.rtakeWhile, hrev, List.takeWhile_append_of_pos hkeep]
    simp
  have hdrop : (name path).rdropWhile (· ≠ '.') = stem ++ ['.'] := by
    rw [List.rdropWhile, hrev, List.dropWhile_append_of_pos hkeep]
    simp
  have hlength : (stem ++ ['.']).length ≤ 1 ↔ stem = [] := by
    rw [List.length_append, List.length_singleton, ← List.length_eq_zero_iff]
    omega
  simp only [suffix, htake, hdrop, hlength]

theorem suffix_of_not_mem (h : '.' ∉ name path) : suffix path = [] := by
  have hdrop : (name path).rdropWhile (· ≠ '.') = [] := by
    rw [List.rdropWhile_eq_nil_iff]
    intro c hc
    rw [decide_eq_true_iff]
    rintro rfl
    exact h hc
  simp only [suffix, hdrop]
  exact if_pos (.inl (Nat.zero_le 1))

theorem relativeTo_join : relativeTo (join directory n) directory = true := by
  simp [relativeTo, join]

/-- A path under `directory / n` goes on with `n` after `directory`. -/
theorem takeWhile_of_relativeTo {path : List Char} (h : '/' ∉ n)
    (hpath : relativeTo path (join directory n) = true) :
    (path.drop (directory.length + 1)).takeWhile (· ≠ '/') = n := by
  have hne : ∀ c ∈ n, decide (c ≠ '/') = true := by
    intro c hc
    rw [decide_eq_true_iff]
    rintro rfl
    exact h hc
  have hdrop : ∀ rest, (join directory n ++ rest).drop (directory.length + 1) = n ++ rest := by
    intro rest
    rw [join, List.append_assoc, ← List.drop_drop, List.drop_left, List.cons_append,
      List.drop_succ_cons, List.drop_zero]
  rw [relativeTo, Bool.or_eq_true, decide_eq_true_iff, List.isPrefixOf_iff_prefix] at hpath
  rcases hpath with rfl | ⟨rest, rfl⟩
  · rw [← List.append_nil (join directory n), hdrop, List.append_nil, List.takeWhile_eq_self_iff]
    exact hne
  · rw [List.append_assoc, hdrop, List.takeWhile_append_of_pos hne]
    simp

/-- A path lies under one subdirectory only. -/
theorem eq_of_relativeTo {path a b : List Char} (ha : '/' ∉ a) (hb : '/' ∉ b)
    (hpath : relativeTo path (join directory a) = true)
    (hpath' : relativeTo path (join directory b) = true) : a = b := by
  rw [← takeWhile_of_relativeTo ha hpath, takeWhile_of_relativeTo hb hpath']

/-! ## Numbers in names -/

/-- `f"{n:0{width}d}"` -/
def pad (width n : ℕ) : List Char :=
  let digits := Nat.toDigits 10 n
  List.replicate (width - digits.length) '0' ++ digits

theorem isDigit_of_mem_pad {width n : ℕ} {c : Char} (h : c ∈ pad width n) : c.isDigit = true := by
  rcases List.mem_append.1 h with h | h
  · rw [List.eq_of_mem_replicate h]
    rfl
  · exact Nat.isDigit_of_mem_toDigits (by decide) (by decide) h

/-- The number is read back from its digits. -/
theorem ofDigitChars_pad (width n : ℕ) : Nat.ofDigitChars 10 (pad width n) 0 = n := by
  rw [pad, Nat.ofDigitChars_append, Nat.ofDigitChars_replicate_zero, Nat.mul_zero,
    Nat.ofDigitChars_ten_toDigits]

theorem pad_injective (width : ℕ) : Function.Injective (pad width) := by
  intro m n h
  rw [← ofDigitChars_pad width m, h, ofDigitChars_pad]

/-- A padded number ends at the first character that is no digit. -/
theorem pad_append_inj {width m n : ℕ} {c : Char} (hc : c.isDigit = false) {s t : List Char}
    (h : pad width m ++ c :: s = pad width n ++ c :: t) : m = n := by
  have hdigits : ∀ (k : ℕ) (u : List Char),
      (pad width k ++ c :: u).takeWhile Char.isDigit = pad width k := fun k u => by
    rw [List.takeWhile_append_of_pos fun _ => isDigit_of_mem_pad, List.takeWhile_cons_of_neg]
    · simp
    · simp [hc]
  refine pad_injective width ?_
  rw [← hdigits m s, h, hdigits n t]

end Paths
