import Mathlib.Tactic.NormNum
import BidProof.Lib.Decimal

/-!
# Timestamps as texts

SQLite keeps every time as the text that `isoformat` writes, and the queries for expired, stale or
recent rows compare these texts.  The fraction is left out when there are no microseconds, so the
texts have two lengths; where they part, one goes on with the `+` of the offset and the other with
a point, which comes later in ASCII.  The texts are therefore ordered as the times.

A time is given by its fields in UTC; `instant` counts the microseconds of the Gregorian calendar.
-/

namespace BidProof.Storage

open Paths (pad)

/-! ## The calendar -/

def isLeap (year : ℕ) : Prop := year % 4 = 0 ∧ (year % 100 ≠ 0 ∨ year % 400 = 0)

instance decidableIsLeap (year : ℕ) : Decidable (isLeap year) :=
  inferInstanceAs (Decidable (_ ∧ _))

def daysInMonth (year month : ℕ) : ℕ :=
  if month = 2 then if isLeap year then 29 else 28
  else if month ∈ [4, 6, 9, 11] then 30
  else 31

/-- The days before the first of January of the year. -/
def daysBeforeYear (year : ℕ) : ℕ :=
  (year - 1) * 365 + (year - 1) / 4 - (year - 1) / 100 + (year - 1) / 400

/-- The days of the year before the first of the month. -/
def daysBeforeMonth (year month : ℕ) : ℕ :=
  ((List.range' 1 (month - 1)).map (daysInMonth year)).sum

/-- A `datetime` with `tzinfo=UTC`. -/
structure Datetime where
  year : ℕ
  month : ℕ
  day : ℕ
  hour : ℕ
  minute : ℕ
  second : ℕ
  microsecond : ℕ
  year_mem : 1 ≤ year ∧ year ≤ 9999
  month_mem : 1 ≤ month ∧ month ≤ 12
  day_mem : 1 ≤ day ∧ day ≤ daysInMonth year month
  hour_lt : hour < 24
  minute_lt : minute < 60
  second_lt : second < 60
  microsecond_lt : microsecond < 1000000

namespace Datetime

/-- `toordinal`: the first of January of year 1 is day 1. -/
def toordinal (d : Datetime) : ℕ :=
  daysBeforeYear d.year + daysBeforeMonth d.year d.month + d.day

/-- The microseconds up to a time. -/
def instant (d : Datetime) : ℕ :=
  (((d.toordinal * 24 + d.hour) * 60 + d.minute) * 60 + d.second) * 1000000 + d.microsecond

/-- What `isoformat` writes behind the seconds. -/
def isoTail (microsecond : ℕ) : List Char :=
  (if microsecond = 0 then [] else '.' :: pad 6 microsecond) ++ "+00:00".toList

/-- `isoformat` -/
def isoformat (d : Datetime) : List Char :=
  pad 4 d.year ++ '-' :: pad 2 d.month ++ '-' :: pad 2 d.day ++ 'T' :: pad 2 d.hour ++
    ':' :: pad 2 d.minute ++ ':' :: pad 2 d.second ++ isoTail d.microsecond

/-- Half a second before a new year. -/
example : isoformat ⟨1999, 12, 31, 23, 59, 59, 500000, by decide, by decide, by decide, by decide,
    by decide, by decide, by decide⟩ = "1999-12-31T23:59:59.500000+00:00".toList := by
  decide

/-- The first field in which two times differ is smaller in the first. -/
def Before (a b : Datetime) : Prop :=
  a.year < b.year ∨ a.year = b.year ∧ (a.month < b.month ∨ a.month = b.month ∧
    (a.day < b.day ∨ a.day = b.day ∧ (a.hour < b.hour ∨ a.hour = b.hour ∧
      (a.minute < b.minute ∨ a.minute = b.minute ∧ (a.second < b.second ∨ a.second = b.second ∧
        a.microsecond < b.microsecond)))))

/-! ## The order of the texts -/

/-- No fraction comes before every fraction. -/
theorem isoTail_lt_iff {m n : ℕ} (hm : m < 1000000) (hn : n < 1000000) :
    isoTail m < isoTail n ↔ m < n := by
  unfold isoTail
  by_cases hm0 : m = 0
  · by_cases hn0 : n = 0
    · rw [hm0, hn0]
      exact iff_of_false (lt_irrefl _) (lt_irrefl _)
    · rw [if_pos hm0, if_neg hn0]
      refine iff_of_true ?_ (by omega)
      exact List.cons_lt_cons_iff.2 (Or.inl (by decide))
  · by_cases hn0 : n = 0
    · rw [if_neg hm0, if_pos hn0]
      refine iff_of_false ?_ (by omega)
      intro h
      rcases List.cons_lt_cons_iff.1 h with h | ⟨h, -⟩
      · exact absurd h (by decide)
      · exact absurd h (by decide)
    · rw [if_neg hm0, if_neg hn0, List.cons_append, List.cons_append, List.cons_lt_cons_iff,
        Decimal.pad_append_lt_iff (by norm_num) hm hn]
      simp

theorem isoformat_lt_iff_before (a b : Datetime) : a.isoformat < b.isoformat ↔ a.Before b := by
  have hfour (n : ℕ) (h : n ≤ 9999) : n < 10 ^ 4 := by omega
  have htwo (n : ℕ) (h : n < 60) : n < 10 ^ 2 := by omega
  have hmonth (d : Datetime) : d.month < 60 := d.month_mem.2.trans_lt (by norm_num)
  have hday (d : Datetime) : d.day < 60 := by
    refine d.day_mem.2.trans_lt ?_
    unfold daysInMonth
    split_ifs <;> norm_num
  have hhour (d : Datetime) : d.hour < 60 := d.hour_lt.trans (by norm_num)
  have hcons (c : Char) (s t : List Char) : c :: s < c :: t ↔ s < t := by
    simp
  simp only [isoformat, List.append_assoc, List.cons_append]
  rw [Decimal.pad_append_lt_iff (by norm_num) (hfour _ a.year_mem.2) (hfour _ b.year_mem.2), hcons,
    Decimal.pad_append_lt_iff (by norm_num) (htwo _ (hmonth a)) (htwo _ (hmonth b)), hcons,
    Decimal.pad_append_lt_iff (by norm_num) (htwo _ (hday a)) (htwo _ (hday b)), hcons,
    Decimal.pad_append_lt_iff (by norm_num) (htwo _ (hhour a)) (htwo _ (hhour b)), hcons,
    Decimal.pad_append_lt_iff (by norm_num) (htwo _ a.minute_lt) (htwo _ b.minute_lt), hcons,
    Decimal.pad_append_lt_iff (by norm_num) (htwo _ a.second_lt) (htwo _ b.second_lt),
    isoTail_lt_iff a.microsecond_lt b.microsecond_lt]
  rfl

/-! ## The order of the times -/

theorem daysBeforeYear_succ {year : ℕ} (h : 1 ≤ year) :
    daysBeforeYear (year + 1) = daysBeforeYear year + if isLeap year then 366 else 365 := by
  obtain ⟨y, rfl⟩ := Nat.exists_eq_add_of_le' h
  -- the century years are among the fourth ones, so nothing is cut off
  have hcenturies : y / 100 ≤ y / 4 := Nat.div_le_div_left (by norm_num) (by norm_num)
  have hfour : 100 ∣ y + 1 → 4 ∣ y + 1 := fun h => (by norm_num : 4 ∣ 100).trans h
  have hhundred : 400 ∣ y + 1 → 100 ∣ y + 1 := fun h => (by norm_num : 100 ∣ 400).trans h
  have hleap : isLeap (y + 1) ↔ 4 ∣ y + 1 ∧ (¬100 ∣ y + 1 ∨ 400 ∣ y + 1) := by
    simp [isLeap, Nat.dvd_iff_mod_eq_zero]
  simp only [daysBeforeYear, hleap, Nat.add_sub_cancel, Nat.succ_div]
  by_cases h400 : 400 ∣ y + 1
  · have h100 := hhundred h400
    rw [if_pos h400, if_pos h100, if_pos (hfour h100), if_pos ⟨hfour h100, .inr h400⟩]
    omega
  · by_cases h100 : 100 ∣ y + 1
    · rw [if_neg h400, if_pos h100, if_pos (hfour h100), if_neg (by tauto)]
      omega
    · by_cases h4 : 4 ∣ y + 1
      · rw [if_neg h400, if_neg h100, if_pos h4, if_pos ⟨h4, .inl h100⟩]
        omega
      · rw [if_neg h400, if_neg h100, if_neg h4, if_neg fun h => h4 h.1]
        omega

theorem daysBeforeYear_mono {year year' : ℕ} (h : 1 ≤ year) (hle : year ≤ year') :
    daysBeforeYear year ≤ daysBeforeYear year' := by
  induction year', hle using Nat.le_induction with
  | base => exact le_rfl
  | succ year' hle ih =>
    rw [daysBeforeYear_succ (h.trans hle)]
    exact ih.trans (Nat.le_add_right _ _)

theorem daysBeforeMonth_succ (year : ℕ) {month : ℕ} (h : 1 ≤ month) :
    daysBeforeMonth year (month + 1) = daysBeforeMonth year month + daysInMonth year month := by
  obtain ⟨k, rfl⟩ := Nat.exists_eq_add_of_le h
  rw [daysBeforeMonth, Nat.add_sub_cancel, Nat.add_comm 1 k, List.range'_concat, List.map_append,
    List.sum_append, daysBeforeMonth, Nat.add_sub_cancel]
  simp [Nat.add_comm]

theorem daysBeforeMonth_mono (year : ℕ) {month month' : ℕ} (h : 1 ≤ month)
    (hle : month ≤ month') : daysBeforeMonth year month ≤ daysBeforeMonth year month' := by
  induction month', hle using Nat.le_induction with
  | base => exact le_rfl
  | succ month' hle ih =>
    rw [daysBeforeMonth_succ year (h.trans hle)]
    exact ih.trans (Nat.le_add_right _ _)

theorem daysBeforeMonth_thirteen (year : ℕ) :
    daysBeforeMonth year 13 = if isLeap year then 366 else 365 := by
  have hmonths : List.range' 1 (13 - 1) = [1, 2, 3, 4, 5, 6, 7, 8, 9, 10, 11, 12] := rfl
  rw [daysBeforeMonth, hmonths]
  by_cases hleap : isLeap year
  · simp [daysInMonth, hleap]
  · simp [daysInMonth, hleap]

theorem dayOfYear_le (d : Datetime) :
    daysBeforeMonth d.year d.month + d.day ≤ daysBeforeMonth d.year (d.month + 1) := by
  rw [daysBeforeMonth_succ _ d.month_mem.1]
  exact Nat.add_le_add_left d.day_mem.2 _

theorem toordinal_lt_of_before {a b : Datetime}
    (h : a.year < b.year ∨ a.year = b.year ∧ (a.month < b.month ∨
      a.month = b.month ∧ a.day < b.day)) : a.toordinal < b.toordinal := by
  unfold toordinal
  have hday := b.day_mem.1
  have ha := dayOfYear_le a
  rcases h with hyear | ⟨hyear, hmonth | ⟨hmonth, hlt⟩⟩
  · have hend : daysBeforeMonth a.year (a.month + 1) ≤ daysBeforeMonth a.year 13 :=
      daysBeforeMonth_mono _ (Nat.succ_le_succ (Nat.zero_le _)) (Nat.succ_le_succ a.month_mem.2)
    have hnext := daysBeforeYear_succ a.year_mem.1
    have hmono : daysBeforeYear (a.year + 1) ≤ daysBeforeYear b.year :=
      daysBeforeYear_mono (Nat.succ_le_succ (Nat.zero_le _)) hyear
    rw [daysBeforeMonth_thirteen] at hend
    omega
  · have hmono : daysBeforeMonth b.year (a.month + 1) ≤ daysBeforeMonth b.year b.month :=
      daysBeforeMonth_mono _ (Nat.succ_le_succ (Nat.zero_le _)) hmonth
    rw [hyear] at ha ⊢
    omega
  · rw [hyear, hmonth]
    omega

theorem instant_lt_of_before {a b : Datetime} (h : a.Before b) : a.instant < b.instant := by
  have hdate := toordinal_lt_of_before (a := a) (b := b)
  have hhour := a.hour_lt
  have hminute := a.minute_lt
  have hsecond := a.second_lt
  have hmicrosecond := a.microsecond_lt
  unfold instant
  by_cases hday : a.year = b.year ∧ a.month = b.month ∧ a.day = b.day
  · have hordinal : a.toordinal = b.toordinal := by
      rw [toordinal, toordinal, hday.1, hday.2.1, hday.2.2]
    unfold Before at h
    omega
  · have hlt : a.toordinal < b.toordinal := by
      refine hdate ?_
      unfold Before at h
      omega
    omega

theorem eq_or_before (a b : Datetime) :
    a.Before b ∨ a.instant = b.instant ∨ b.Before a := by
  have heq : (a.year = b.year ∧ a.month = b.month ∧ a.day = b.day ∧ a.hour = b.hour ∧
      a.minute = b.minute ∧ a.second = b.second ∧ a.microsecond = b.microsecond) →
      a.instant = b.instant := by
    rintro ⟨hy, hm, hd, hh, hmin, hs, hus⟩
    simp only [instant, toordinal, hy, hm, hd, hh, hmin, hs, hus]
  unfold Before
  omega

end Datetime

/-- The texts of two times are ordered as the times. -/
theorem timestamps_ordered (a b : Datetime) :
    (a.isoformat < b.isoformat ↔ a.instant < b.instant) ∧
      (a.isoformat ≤ b.isoformat ↔ a.instant ≤ b.instant) := by
  have hlt (a b : Datetime) : a.isoformat < b.isoformat ↔ a.instant < b.instant := by
    rw [a.isoformat_lt_iff_before b]
    refine ⟨Datetime.instant_lt_of_before, fun h => ?_⟩
    rcases a.eq_or_before b with hab | heq | hba
    · exact hab
    · exact absurd heq (Nat.ne_of_lt h)
    · exact absurd h (Nat.lt_asymm (Datetime.instant_lt_of_before hba))
  exact ⟨hlt a b, not_lt.symm.trans ((not_congr (hlt b a)).trans Nat.not_lt)⟩

end BidProof.Storage
