import Mathlib.Data.List.Lex
import Mathlib.Data.String.Basic
import Mathlib.Tactic.Common

/-!
# Datetimes and their texts

The datetimes of the years 1 to 9999 in UTC, compared by their fields; the microseconds that have passed until
each of them; and their ISO texts, in which the fraction of a second is left out when there is none. Fields,
counts and texts are in one order.
-/

/-! ### Places of varying size -/

namespace Places

variable {size : Nat → Nat} {i j : Nat}

/-- What comes before a place: all the places before it. -/
def before (size : Nat → Nat) : Nat → Nat
  | 0 => 0
  | i + 1 => before size i + size i

/-- The place in which a count is, that many places from one on at most, and what of it is in that place. -/
def locate (size : Nat → Nat) : Nat → Nat → Nat → Nat × Nat
  | 0, start, count => (start, count)
  | places + 1, start, count =>
      if count < size start then (start, count) else locate size places (start + 1) (count - size start)

theorem before_add_le (size : Nat → Nat) (hless : i < j) : before size i + size i ≤ before size j := by
  induction hless with
  | refl => exact Nat.le_refl _
  | step _ ih => exact Nat.le_trans ih (Nat.le_add_right _ _)

/-- A count is found in its place. -/
theorem locate_spec {places start count : Nat} (hcount : before size start + count < before size (start + places)) :
    start ≤ (locate size places start count).1 ∧ (locate size places start count).1 < start + places
      ∧ (locate size places start count).2 < size (locate size places start count).1
      ∧ before size (locate size places start count).1 + (locate size places start count).2
        = before size start + count := by
  induction places generalizing start count with
  | zero =>
      rw [Nat.add_zero] at hcount
      omega
  | succ places ih =>
      rw [locate]
      split
      · rename_i hhere
        exact ⟨Nat.le_refl _, by omega, hhere, rfl⟩
      · rename_i hlater
        have hnext : before size (start + 1) + (count - size start) = before size start + count := by
          rw [before]
          omega
        have hends : start + 1 + places = start + (places + 1) := by omega
        have hwithin : before size (start + 1) + (count - size start) < before size (start + 1 + places) := by
          rw [hnext, hends]
          exact hcount
        obtain ⟨hfrom, hto, hrest, heq⟩ := ih hwithin
        exact ⟨by omega, by omega, hrest, heq.trans hnext⟩

end Places

/-! ### Decimals of fixed width -/

namespace Decimals

/-- The decimal of a number, filled up by zeros on the left. -/
def padded (width n : Nat) : List Char := (Nat.toDigits 10 n).leftpad width '0'

/-- The last digits of a number. -/
def digits : Nat → Nat → List Char
  | 0, _ => []
  | width + 1, n => digits width (n / 10) ++ [Nat.digitChar (n % 10)]

theorem length_digits (width n : Nat) : (digits width n).length = width := by
  induction width generalizing n with
  | zero => rfl
  | succ width ih => rw [digits, List.length_append, ih, List.length_singleton]

theorem digits_zero (width : Nat) : digits width 0 = List.replicate width '0' := by
  induction width with
  | zero => rfl
  | succ width ih =>
      rw [digits, Nat.zero_div, ih, List.replicate_succ']
      rfl

theorem padded_eq_digits {width n : Nat} (hwidth : 0 < width) (hn : n < 10 ^ width) :
    padded width n = digits width n := by
  induction width generalizing n with
  | zero => exact absurd hwidth (Nat.lt_irrefl 0)
  | succ width ih =>
      rw [digits, padded, List.leftpad]
      by_cases hsmall : n < 10
      · rw [Nat.toDigits_of_lt_base hsmall, Nat.div_eq_of_lt hsmall, digits_zero, Nat.mod_eq_of_lt hsmall,
          List.length_singleton, Nat.add_sub_cancel]
      · have hlarge : 10 ≤ n := Nat.le_of_not_lt hsmall
        have hpos : 0 < width := by
          rcases Nat.eq_zero_or_pos width with rfl | hpos
          · omega
          · exact hpos
        have hrest : n / 10 < 10 ^ width := by
          rw [Nat.div_lt_iff_lt_mul (by decide), ← Nat.pow_succ]
          exact hn
        rw [Nat.toDigits_of_base_le (by decide) hlarge, ← ih hpos hrest, padded, List.leftpad,
          List.length_append, List.length_singleton, Nat.add_sub_add_right, List.append_assoc]

theorem append_lt_append {first second rest other : List Char} (hlength : first.length = second.length) :
    first ++ rest < second ++ other ↔ first < second ∨ first = second ∧ rest < other := by
  induction first generalizing second with
  | nil =>
      obtain rfl := List.length_eq_zero_iff.mp hlength.symm
      simp
  | cons c first ih =>
      cases second with
      | nil => cases hlength
      | cons d second =>
          rw [List.cons_append, List.cons_append, List.cons_lt_cons_iff, List.cons_lt_cons_iff,
            ih (Nat.succ.inj hlength), List.cons.injEq]
          tauto

theorem digitChar_lt_iff {m n : Nat} (hm : m < 10) (hn : n < 10) :
    Nat.digitChar m < Nat.digitChar n ↔ m < n := by
  have hdigits : ∀ first second : Fin 10, Nat.digitChar first < Nat.digitChar second ↔ first < second := by
    decide
  exact hdigits ⟨m, hm⟩ ⟨n, hn⟩

/-- Decimals of one width are in the order of their numbers. -/
theorem digits_lt_iff {width m n : Nat} (hm : m < 10 ^ width) (hn : n < 10 ^ width) :
    digits width m < digits width n ↔ m < n := by
  induction width generalizing m n with
  | zero =>
      rw [Nat.pow_zero] at hm hn
      simp only [digits, List.lt_irrefl, false_iff]
      omega
  | succ width ih =>
      have hrest : ∀ {k}, k < 10 ^ (width + 1) → k / 10 < 10 ^ width := fun hk => by
        rw [Nat.div_lt_iff_lt_mul (by decide), ← Nat.pow_succ]
        exact hk
      have hlast : [Nat.digitChar (m % 10)] < [Nat.digitChar (n % 10)] ↔ m % 10 < n % 10 := by
        rw [List.cons_lt_cons_iff, digitChar_lt_iff (Nat.mod_lt m (by decide)) (Nat.mod_lt n (by decide))]
        simp
      have hsame : digits width (m / 10) = digits width (n / 10) ↔ m / 10 = n / 10 := by
        constructor
        · intro heq
          have hless := ih (hrest hm) (hrest hn)
          have hmore := ih (hrest hn) (hrest hm)
          rw [heq] at hless hmore
          simp only [List.lt_irrefl, false_iff] at hless hmore
          omega
        · exact fun heq => by rw [heq]
      rw [digits, digits, append_lt_append (by rw [length_digits, length_digits]), ih (hrest hm) (hrest hn),
        hlast, hsame]
      omega

/-- Texts that begin with decimals of one width. -/
theorem padded_append_lt_iff {width m n : Nat} {rest other : List Char} (hwidth : 0 < width)
    (hm : m < 10 ^ width) (hn : n < 10 ^ width) :
    padded width m ++ rest < padded width n ++ other ↔ m < n ∨ m = n ∧ rest < other := by
  have hless := digits_lt_iff hm hn
  have hmore := digits_lt_iff hn hm
  rw [padded_eq_digits hwidth hm, padded_eq_digits hwidth hn,
    append_lt_append (by rw [length_digits, length_digits]), hless]
  refine or_congr_right (and_congr_left' ⟨fun heq => ?_, fun heq => by rw [heq]⟩)
  rw [heq] at hless hmore
  simp only [List.lt_irrefl, false_iff] at hless hmore
  omega

end Decimals

/-! ### Datetimes -/

def isLeapYear (year : Nat) : Bool := year % 4 = 0 && (year % 100 ≠ 0 || year % 400 = 0)

def daysInMonth (year month : Nat) : Nat :=
  if month = 2 then if isLeapYear year then 29 else 28
  else if month ∈ [4, 6, 9, 11] then 30 else 31

/-- A `datetime` in UTC. -/
structure Datetime where
  year : Nat
  month : Nat
  day : Nat
  hour : Nat
  minute : Nat
  second : Nat
  microsecond : Nat
  validYear : 1 ≤ year ∧ year ≤ 9999
  validMonth : 1 ≤ month ∧ month ≤ 12
  validDay : 1 ≤ day ∧ day ≤ daysInMonth year month
  validTime : hour < 24 ∧ minute < 60 ∧ second < 60 ∧ microsecond < 1000000
deriving DecidableEq

namespace Datetime

/-- What two datetimes are compared by. -/
def fields (d : Datetime) : List Nat := [d.year, d.month, d.day, d.hour, d.minute, d.second, d.microsecond]

instance : LT Datetime := ⟨fun a b => a.fields < b.fields⟩
instance : LE Datetime := ⟨fun a b => ¬ b < a⟩

instance (a b : Datetime) : Decidable (a < b) := inferInstanceAs (Decidable (a.fields < b.fields))
instance (a b : Datetime) : Decidable (a ≤ b) := inferInstanceAs (Decidable (¬ b < a))

/-- The fraction of the second, which is left out when it is zero. -/
def fraction (d : Datetime) : List Char :=
  if d.microsecond = 0 then [] else '.' :: Decimals.padded 6 d.microsecond

/-- `isoformat()` -/
def isoformat (d : Datetime) : String :=
  String.ofList (Decimals.padded 4 d.year ++ '-' :: (Decimals.padded 2 d.month ++ '-' :: (Decimals.padded 2 d.day
    ++ 'T' :: (Decimals.padded 2 d.hour ++ ':' :: (Decimals.padded 2 d.minute ++ ':' ::
      (Decimals.padded 2 d.second ++ (d.fraction ++ ['+', '0', '0', ':', '0', '0'])))))))

variable {a b : Datetime}

theorem lt_iff : a < b ↔ a.year < b.year ∨ a.year = b.year ∧ (a.month < b.month ∨ a.month = b.month
    ∧ (a.day < b.day ∨ a.day = b.day ∧ (a.hour < b.hour ∨ a.hour = b.hour ∧ (a.minute < b.minute
      ∨ a.minute = b.minute ∧ (a.second < b.second ∨ a.second = b.second
        ∧ a.microsecond < b.microsecond))))) := by
  change a.fields < b.fields ↔ _
  simp only [fields, List.cons_lt_cons_iff, List.lt_irrefl, and_false, or_false]

theorem day_le (d : Datetime) : d.day ≤ 31 := by
  have hday := d.validDay.2
  unfold daysInMonth at hday
  split at hday
  · split at hday <;> omega
  · split at hday <;> omega

/-- The fraction is read after the seconds: a text without one has the sign of its offset there, which comes
before the point. -/
theorem fraction_lt_iff :
    a.fraction ++ ['+', '0', '0', ':', '0', '0'] < b.fraction ++ ['+', '0', '0', ':', '0', '0']
      ↔ a.microsecond < b.microsecond := by
  have ha := a.validTime.2.2.2
  have hb := b.validTime.2.2.2
  unfold fraction
  by_cases hza : a.microsecond = 0
  · by_cases hzb : b.microsecond = 0
    · rw [if_pos hza, if_pos hzb, hza, hzb]
      exact iff_of_false (List.lt_irrefl _) (Nat.lt_irrefl 0)
    · rw [if_pos hza, if_neg hzb, List.nil_append, List.cons_append, List.cons_lt_cons_iff]
      exact iff_of_true (Or.inl (by decide)) (by omega)
  · by_cases hzb : b.microsecond = 0
    · rw [if_neg hza, if_pos hzb, List.nil_append, List.cons_append, List.cons_lt_cons_iff]
      refine iff_of_false ?_ (by omega)
      rintro (hless | ⟨heq, -⟩)
      · exact absurd hless (by decide)
      · exact absurd heq (by decide)
    · rw [if_neg hza, if_neg hzb, List.cons_append, List.cons_append, List.cons_lt_cons_iff,
        Decimals.padded_append_lt_iff (by decide) ha hb]
      simp only [Char.lt_irrefl, false_or, true_and, List.lt_irrefl, and_false, or_false]

/-- Texts are in the order of the datetimes. -/
theorem isoformat_lt_iff : a.isoformat < b.isoformat ↔ a < b := by
  have hyears := And.intro a.validYear.2 b.validYear.2
  have hmonths := And.intro a.validMonth.2 b.validMonth.2
  have hdays := And.intro a.day_le b.day_le
  obtain ⟨hhour, hminute, hsecond, -⟩ := a.validTime
  obtain ⟨hhour', hminute', hsecond', -⟩ := b.validTime
  rw [lt_iff, String.lt_iff_toList_lt, isoformat, isoformat, String.toList_ofList, String.toList_ofList,
    Decimals.padded_append_lt_iff (by decide) (by omega) (by omega), List.cons_lt_cons_iff,
    Decimals.padded_append_lt_iff (by decide) (by omega) (by omega), List.cons_lt_cons_iff,
    Decimals.padded_append_lt_iff (by decide) (by omega) (by omega), List.cons_lt_cons_iff,
    Decimals.padded_append_lt_iff (by decide) (by omega) (by omega), List.cons_lt_cons_iff,
    Decimals.padded_append_lt_iff (by decide) (by omega) (by omega), List.cons_lt_cons_iff,
    Decimals.padded_append_lt_iff (by decide) (by omega) (by omega), fraction_lt_iff]
  simp only [Char.lt_irrefl, false_or, true_and]

example : (Datetime.mk 2024 2 29 23 59 59 1 (by decide) (by decide) (by decide) (by decide)).isoformat
    = "2024-02-29T23:59:59.000001+00:00" := by decide

theorem isoformat_le_iff : a.isoformat ≤ b.isoformat ↔ a ≤ b := by
  rw [← not_lt, isoformat_lt_iff]
  rfl

/-- Two datetimes none of which is before the other are one. -/
theorem eq_of_not_lt (hnotless : ¬ a < b) (hnotmore : ¬ b < a) : a = b := by
  rw [lt_iff] at hnotless hnotmore
  have hfields : a.year = b.year ∧ a.month = b.month ∧ a.day = b.day ∧ a.hour = b.hour
      ∧ a.minute = b.minute ∧ a.second = b.second ∧ a.microsecond = b.microsecond := by
    omega
  cases a
  cases b
  simpa using hfields

/-! ### Counting -/

/-- The days of the year after that many years. -/
def yearSize (years : Nat) : Nat := if isLeapYear (years + 1) then 366 else 365

/-- The days of the month after that many months of the year. -/
def monthSize (year months : Nat) : Nat := daysInMonth year (months + 1)

/-- The days that have passed before that of a datetime. -/
def days (d : Datetime) : Nat :=
  Places.before yearSize (d.year - 1) + (Places.before (monthSize d.year) (d.month - 1) + (d.day - 1))

/-- The microseconds that have passed. -/
def timestamp (d : Datetime) : Nat :=
  (((d.days * 24 + d.hour) * 60 + d.minute) * 60 + d.second) * 1000000 + d.microsecond

/-- The microseconds of the years 1 to 9999. -/
def limit : Nat := Places.before yearSize 9999 * 86400000000

theorem months_of_year (year : Nat) (hyear : 1 ≤ year) :
    Places.before (monthSize year) 12 = yearSize (year - 1) := by
  have hsame : year - 1 + 1 = year := Nat.sub_add_cancel hyear
  simp only [Places.before, monthSize, daysInMonth, yearSize, hsame]
  cases isLeapYear year <;> rfl

/-- The day of a year comes before the next year. -/
theorem day_of_year_lt (d : Datetime) :
    Places.before (monthSize d.year) (d.month - 1) + (d.day - 1) < yearSize (d.year - 1) := by
  obtain ⟨hmonth, hmonth'⟩ := d.validMonth
  obtain ⟨hday, hday'⟩ := d.validDay
  have hnext := Places.before_add_le (monthSize d.year) (show d.month - 1 < 12 by omega)
  have hmonthSize : monthSize d.year (d.month - 1) = daysInMonth d.year d.month := by
    rw [monthSize, Nat.sub_add_cancel hmonth]
  rw [months_of_year d.year d.validYear.1, hmonthSize] at hnext
  omega

theorem days_lt_of_lt (hless : a.year < b.year ∨ a.year = b.year ∧ (a.month < b.month
    ∨ a.month = b.month ∧ a.day < b.day)) : a.days < b.days := by
  obtain ⟨hyear, -⟩ := a.validYear
  obtain ⟨hmonth, -⟩ := a.validMonth
  obtain ⟨hday, hday'⟩ := a.validDay
  obtain ⟨hdayB, -⟩ := b.validDay
  unfold days
  rcases hless with hyears | ⟨hyears, hmonths | ⟨hmonths, hdays⟩⟩
  · have hnext := Places.before_add_le yearSize (show a.year - 1 < b.year - 1 by omega)
    have hwithin := a.day_of_year_lt
    omega
  · have hnext := Places.before_add_le (monthSize a.year) (show a.month - 1 < b.month - 1 by omega)
    have hmonthSize : monthSize a.year (a.month - 1) = daysInMonth a.year a.month := by
      rw [monthSize, Nat.sub_add_cancel hmonth]
    rw [hmonthSize] at hnext
    rw [← hyears]
    omega
  · rw [← hyears, ← hmonths]
    omega

theorem timestamp_lt_of_lt (hless : a < b) : a.timestamp < b.timestamp := by
  obtain ⟨hhour, hminute, hsecond, hmicrosecond⟩ := a.validTime
  rw [lt_iff] at hless
  by_cases hdays : a.year < b.year ∨ a.year = b.year ∧ (a.month < b.month ∨ a.month = b.month ∧ a.day < b.day)
  · have hbefore := days_lt_of_lt hdays
    unfold timestamp
    omega
  · have hday : a.year = b.year ∧ a.month = b.month ∧ a.day = b.day := by omega
    have hsame : a.days = b.days := by rw [days, days, hday.1, hday.2.1, hday.2.2]
    unfold timestamp
    omega

/-- Counts are in the order of the datetimes. -/
theorem timestamp_lt_iff : a.timestamp < b.timestamp ↔ a < b := by
  refine ⟨fun hless => ?_, timestamp_lt_of_lt⟩
  by_contra hnotless
  by_cases hmore : b < a
  · exact Nat.lt_asymm hless (timestamp_lt_of_lt hmore)
  · rw [eq_of_not_lt hnotless hmore] at hless
    exact Nat.lt_irrefl _ hless

/-! ### The datetime of a count -/

/-- The year and the day of it, both after so many. -/
def yearOf (days : Nat) : Nat × Nat := Places.locate yearSize 9999 0 days

/-- The month and the day of it, both after so many. -/
def monthOf (year dayOfYear : Nat) : Nat × Nat := Places.locate (monthSize year) 12 0 dayOfYear

theorem yearOf_spec {days : Nat} (hdays : days < Places.before yearSize 9999) :
    (yearOf days).1 < 9999 ∧ (yearOf days).2 < yearSize (yearOf days).1
      ∧ Places.before yearSize (yearOf days).1 + (yearOf days).2 = days := by
  have hcount : Places.before yearSize 0 + days < Places.before yearSize (0 + 9999) := by
    rw [Places.before, Nat.zero_add, Nat.zero_add]
    exact hdays
  obtain ⟨-, hless, hrest, heq⟩ := Places.locate_spec hcount
  refine ⟨by rwa [Nat.zero_add] at hless, hrest, heq.trans ?_⟩
  rw [Places.before, Nat.zero_add]

theorem monthOf_spec {year dayOfYear : Nat} (hyear : 1 ≤ year) (hday : dayOfYear < yearSize (year - 1)) :
    (monthOf year dayOfYear).1 < 12
      ∧ (monthOf year dayOfYear).2 < monthSize year (monthOf year dayOfYear).1
      ∧ Places.before (monthSize year) (monthOf year dayOfYear).1 + (monthOf year dayOfYear).2 = dayOfYear := by
  have hcount : Places.before (monthSize year) 0 + dayOfYear < Places.before (monthSize year) (0 + 12) := by
    rw [Places.before, Nat.zero_add, Nat.zero_add, months_of_year year hyear]
    exact hday
  obtain ⟨-, hless, hrest, heq⟩ := Places.locate_spec hcount
  refine ⟨by rwa [Nat.zero_add] at hless, hrest, heq.trans ?_⟩
  rw [Places.before, Nat.zero_add]

/-- The microseconds of that many years from the year 1 on. -/
def microseconds (years : Nat) : Nat := Places.before yearSize years * 86400000000

theorem days_lt_of_lt_microseconds {years count : Nat} (hcount : count < microseconds years) :
    count / 86400000000 < Places.before yearSize years :=
  (Nat.div_lt_iff_lt_mul (by decide)).mpr hcount

theorem days_lt_of_lt_limit {count : Nat} (hcount : count < limit) :
    count / 86400000000 < Places.before yearSize 9999 := by
  -- Both sides unfold to the same product, which need not be computed.
  have hyears : count < microseconds 9999 := hcount
  exact days_lt_of_lt_microseconds hyears

/-- The datetime at a count of microseconds. -/
def ofTimestamp (count : Nat) (hcount : count < limit) : Datetime where
  year := (yearOf (count / 86400000000)).1 + 1
  month := (monthOf ((yearOf (count / 86400000000)).1 + 1) (yearOf (count / 86400000000)).2).1 + 1
  day := (monthOf ((yearOf (count / 86400000000)).1 + 1) (yearOf (count / 86400000000)).2).2 + 1
  hour := count / 3600000000 % 24
  minute := count / 60000000 % 60
  second := count / 1000000 % 60
  microsecond := count % 1000000
  validYear := by
    have hyear := (yearOf_spec (days_lt_of_lt_limit hcount)).1
    omega
  validMonth := by
    have hday := (yearOf_spec (days_lt_of_lt_limit hcount)).2.1
    have hmonth := (monthOf_spec (Nat.le_add_left 1 _) hday).1
    exact ⟨Nat.le_add_left 1 _, Nat.succ_le_of_lt hmonth⟩
  validDay := by
    have hday := (yearOf_spec (days_lt_of_lt_limit hcount)).2.1
    have hday' := (monthOf_spec (Nat.le_add_left 1 _) hday).2.1
    exact ⟨Nat.le_add_left 1 _, Nat.succ_le_of_lt hday'⟩
  validTime := by omega

theorem timestamp_ofTimestamp {count : Nat} (hcount : count < limit) :
    (ofTimestamp count hcount).timestamp = count := by
  obtain ⟨-, hday, hyears⟩ := yearOf_spec (days_lt_of_lt_limit hcount)
  obtain ⟨-, -, hmonths⟩ := monthOf_spec (Nat.le_add_left 1 _) hday
  have hdays : (ofTimestamp count hcount).days = count / 86400000000 := by
    rw [days, ofTimestamp]
    simp only [Nat.add_sub_cancel]
    rw [hmonths, hyears]
  rw [timestamp, hdays]
  simp only [ofTimestamp]
  omega

end Datetime
