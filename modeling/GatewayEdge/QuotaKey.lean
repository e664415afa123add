import GatewayEdge.Foundation.Gregorian
import GatewayEdge.Foundation.Numeral
import GatewayEdge.Quota
import Mathlib.Tactic.IntervalCases

/-!
# QuotaKey — what a counter key says

The day of a counter is computed by divisions from the seconds since the epoch, in years that begin in
March.  It is shown to be the date of the calendar, so that the keys of two instants agree exactly within
a day and grow with the days; and the parts of a counter key can be read off it again.
-/

namespace GatewayEdge
namespace Quota

open Foundation
open Foundation.Gregorian

/-! ## Years from March -/

/-- The year of a day of the era. -/
def yearOfEra (doe : ℕ) : ℕ := (doe - doe / 1460 + doe / 36524 - doe / 146096) / 365

/-- Days from 1 March of the year 0 to 1 March of this year. -/
def marchDay (year : ℕ) : ℕ := 365 * year + year / 4 - year / 100 + year / 400

/-- The date of a day of a year that begins in March. -/
def dateFromMarch (year doy : ℕ) : ℕ × ℕ × ℕ :=
  let mp := (5 * doy + 2) / 153
  let d := doy - (153 * mp + 2) / 5 + 1
  let m := if mp < 10 then mp + 3 else mp - 9
  (if m ≤ 2 then year + 1 else year, m, d)

/-- A day of the era is in a century, a cycle of four years, a year and a day of it; only the last year of
a cycle may have 366 days, and the last cycle of a century has such a year in every fourth century. -/
theorem yearOfEra_spec {doe : ℕ} (h : doe < 146097) :
    ∃ c q t doy : ℕ, yearOfEra doe = 100 * c + 4 * q + t ∧
      doe = 36524 * c + 1461 * q + 365 * t + doy ∧ c ≤ 3 ∧ q ≤ 24 ∧ t ≤ 3 ∧ doy ≤ 365 ∧
      (doy = 365 → t = 3 ∧ (q < 24 ∨ c = 3)) := by
  unfold yearOfEra
  by_cases hlast : doe = 146096
  · -- The leap day at the end of the era is in the fourth year of its last cycle.
    subst hlast
    exact ⟨3, 24, 3, 365, by decide⟩
  · obtain ⟨c, r, hdoe, hr, hc⟩ : ∃ c r, doe = 36524 * c + r ∧ r < 36524 ∧ c ≤ 3 :=
      ⟨doe / 36524, doe % 36524, by omega, by omega, by omega⟩
    obtain ⟨q, s, hrest, hs, hq⟩ : ∃ q s, r = 1461 * q + s ∧ s < 1461 ∧ q ≤ 24 :=
      ⟨r / 1461, r % 1461, by omega, by omega, by omega⟩
    -- Whether the correction by 1460 has already counted the next leap day.
    obtain ⟨e, hlow, hhigh⟩ : ∃ e, 1460 * e ≤ 24 * c + q + s ∧ 24 * c + q + s < 1460 * (e + 1) :=
      ⟨(24 * c + q + s) / 1460, by omega, by omega⟩
    have hcycles : doe / 1460 = 25 * c + q + e := by omega
    have hcenturies : doe / 36524 = c := by omega
    have hera : doe / 146096 = 0 := by omega
    -- A cycle ends with its leap day.
    obtain ⟨t, doy, hyear, hdoy, ht⟩ : ∃ t doy, s = 365 * t + doy ∧ doy ≤ 365 ∧ t ≤ 3 ∧
        (doy = 365 → t = 3) := by
      by_cases hleap : s = 1460
      · exact ⟨3, 365, by omega⟩
      · exact ⟨s / 365, s % 365, by omega⟩
    refine ⟨c, q, t, doy, ?_, by omega, hc, hq, ht.1, hdoy, by omega⟩
    rw [hcycles, hcenturies, hera]
    omega

/-- A year of the calendar by its era, century, cycle and place in the cycle. -/
theorem marchDay_split (era : ℕ) {c q t : ℕ} (hc : c ≤ 3) (hq : q ≤ 24) (ht : t ≤ 3) :
    marchDay (100 * c + 4 * q + t + era * 400) =
      146097 * era + (36524 * c + 1461 * q + 365 * t) := by
  have hquarters : (100 * c + 4 * q + t + era * 400) / 4 = 25 * c + q + 100 * era := by omega
  have hcenturies : (100 * c + 4 * q + t + era * 400) / 100 = c + 4 * era := by omega
  have heras : (100 * c + 4 * q + t + era * 400) / 400 = era := by omega
  unfold marchDay
  rw [hquarters, hcenturies, heras]
  omega

/-- Where the algorithm puts a day number: in a year from March that has the day. -/
theorem civilFromDays_march (days : ℕ) :
    ∃ year doy, civilFromDays days = dateFromMarch year doy ∧
      days + 719468 = marchDay year + doy ∧ doy ≤ 365 ∧ (doy = 365 → IsLeap (year + 1)) := by
  have hdoe : (days + 719468) % 146097 < 146097 := Nat.mod_lt _ (by decide)
  have hz := Nat.div_add_mod (days + 719468) 146097
  rcases yearOfEra_spec hdoe with ⟨c, q, t, doy, hyoe, hsplit, hc, hq, ht, hdoy, hlast⟩
  generalize hera : (days + 719468) / 146097 = era at hz
  have hquarters : (100 * c + 4 * q + t) / 4 = 25 * c + q := by omega
  have hcenturies : (100 * c + 4 * q + t) / 100 = c := by omega
  -- Days into the year, by the formula of the code.
  have hrest : (days + 719468) % 146097 - (365 * (100 * c + 4 * q + t) + (100 * c + 4 * q + t) / 4 -
      (100 * c + 4 * q + t) / 100) = doy := by
    rw [hquarters, hcenturies]
    omega
  refine ⟨100 * c + 4 * q + t + era * 400, doy, ?_, ?_, hdoy, ?_⟩
  · calc
      civilFromDays days
          = dateFromMarch (yearOfEra ((days + 719468) % 146097) + (days + 719468) / 146097 * 400)
              ((days + 719468) % 146097 - (365 * yearOfEra ((days + 719468) % 146097) +
                yearOfEra ((days + 719468) % 146097) / 4 -
                yearOfEra ((days + 719468) % 146097) / 100)) := rfl
      _ = dateFromMarch (100 * c + 4 * q + t + era * 400) doy := by rw [hyoe, hera, hrest]
  · rw [marchDay_split era hc hq ht]
    omega
  · intro hleap
    have hshape := hlast hleap
    unfold IsLeap
    omega

/-! ## Months from March -/

/-- 1 January of the next year is 306 days after 1 March. -/
theorem daysBeforeYear_march (year : ℕ) : daysBeforeYear (year + 1) = marchDay year + 366 := by
  have h := daysBeforeYear_eq (year + 1)
  unfold marchDay
  omega

/-- January and February before 1 March. -/
theorem daysBefore_march (year : ℕ) :
    daysBeforeYear year + (31 + monthLength year 2) = marchDay year + 60 := by
  have hyear := daysBeforeYear_succ year
  have hmarch := daysBeforeYear_march year
  have hrest : monthLength year 2 + 337 = yearLength year := by
    by_cases hleap : IsLeap year
    · simp [monthLength, yearLength, hleap]
    · simp [monthLength, yearLength, hleap]
  omega

theorem monthLength_march (year : ℕ) {k : ℕ} (h : k < 10) :
    monthLength year (k + 3) = (153 * (k + 1) + 2) / 5 - (153 * k + 2) / 5 := by
  interval_cases k <;> rfl

/-- From March on, five months have 153 days. -/
theorem daysBeforeMonth_march (year : ℕ) {k : ℕ} (h : k < 10) :
    daysBeforeMonth year (k + 3) = (153 * k + 2) / 5 + (31 + monthLength year 2) := by
  induction k with
  | zero =>
      rw [daysBeforeMonth_succ year (by decide), daysBeforeMonth_succ year (by decide),
        daysBeforeMonth_one, Nat.zero_add]
      exact (Nat.zero_add _).symm
  | succ k ih =>
      have hlt : k < 10 := Nat.lt_of_succ_lt h
      have hbefore := ih hlt
      have hlength := monthLength_march year hlt
      rw [Nat.add_right_comm k 1 3, daysBeforeMonth_succ year (Nat.le_add_left 1 (k + 2)), hbefore,
        hlength]
      omega

/-- A day of a year from March is a date of the calendar. -/
theorem exists_date_of_march {year doy : ℕ} (hdoy : doy ≤ 365) (hleap : doy = 365 → IsLeap (year + 1)) :
    ∃ date : Date, dateFromMarch year doy = (date.year, date.month, date.day) ∧
      date.dayNumber = marchDay year + doy + 60 := by
  unfold dateFromMarch
  dsimp only
  generalize hmp : (5 * doy + 2) / 153 = mp
  have hjanuary := daysBeforeYear_march year
  by_cases hmarch : mp < 10
  · have hlength := monthLength_march year hmarch
    have hbefore := daysBeforeMonth_march year hmarch
    have hfirst := daysBefore_march year
    -- March to December are months of the same year of the calendar.
    refine ⟨⟨year, mp + 3, doy - (153 * mp + 2) / 5 + 1, by omega, by omega, by omega, by omega⟩, ?_, ?_⟩
    · rw [if_pos hmarch, if_neg (by omega)]
    · unfold Date.dayNumber
      dsimp only
      omega
  -- The last two months belong to the next year of the calendar.
  · obtain rfl | rfl : mp = 10 ∨ mp = 11 := by omega
    · refine ⟨⟨year + 1, 1, doy - 306 + 1, by omega, by omega, by omega, ?_⟩, rfl, ?_⟩
      · have hlength : monthLength (year + 1) 1 = 31 := rfl
        omega
      · have hbefore := daysBeforeMonth_one (year + 1)
        unfold Date.dayNumber
        dsimp only
        omega
    · refine ⟨⟨year + 1, 2, doy - 337 + 1, by omega, by omega, by omega, ?_⟩, rfl, ?_⟩
      · -- The 366th day of a year from March is 29 February.
        by_cases hlast : doy = 365
        · have hlength : monthLength (year + 1) 2 = 29 := if_pos (hleap hlast)
          omega
        · have hlength : 28 ≤ monthLength (year + 1) 2 := by
            unfold monthLength
            split_ifs <;> omega
          omega
      · have hbefore : daysBeforeMonth (year + 1) 2 = 31 := by
          rw [daysBeforeMonth_succ _ le_rfl, daysBeforeMonth_one]
          rfl
        unfold Date.dayNumber
        dsimp only
        omega

/-- The algorithm finds the date of every day since the epoch. -/
theorem exists_civilDate (days : ℕ) :
    ∃ date : Date, civilFromDays days = (date.year, date.month, date.day) ∧
      date.dayNumber = epoch.dayNumber + days := by
  rcases civilFromDays_march days with ⟨year, doy, hcivil, hdays, hdoy, hleap⟩
  rcases exists_date_of_march hdoy hleap with ⟨date, hdate, hnumber⟩
  refine ⟨date, hcivil.trans hdate, ?_⟩
  rw [hnumber, dayNumber_epoch]
  omega

/-! ## Digits -/

theorem replicate_zero_eq (width : ℕ) :
    List.replicate width '0' = numeral Nat.digitChar 10 width 0 := by
  rw [numeral_zero]
  rfl

/-- A number that fits the width is padded to a numeral of the width. -/
theorem padDecimal_eq_numeral {width n : ℕ} (hwidth : 1 ≤ width) (h : n < 10 ^ width) :
    padDecimal width n = numeral Nat.digitChar 10 width n := by
  induction width, hwidth using Nat.le_induction generalizing n with
  | base =>
      have hlt : n < 10 := by simpa using h
      rw [numeral_one hlt]
      unfold padDecimal
      rw [Nat.toDigits_of_lt_base hlt]
      rfl
  | succ width hwidth ih =>
      have hfront := ih (div_lt_pow h)
      unfold padDecimal at hfront ⊢
      dsimp only at hfront ⊢
      rcases Nat.lt_or_ge n 10 with hlt | hge
      · have hdiv : n / 10 = 0 := Nat.div_eq_of_lt hlt
        rw [numeral, hdiv, ← replicate_zero_eq, Nat.mod_eq_of_lt hlt, Nat.toDigits_of_lt_base hlt]
        rfl
      · rw [numeral, ← hfront, Nat.toDigits_of_base_le (by decide) hge, List.length_append,
          List.length_singleton, Nat.add_sub_add_right, List.append_assoc]

/-- The eight digits of a date. -/
def dateKey (date : Date) : List Char :=
  numeral Nat.digitChar 10 4 date.year ++ numeral Nat.digitChar 10 2 date.month ++
    numeral Nat.digitChar 10 2 date.day

theorem day_lt_hundred (date : Date) : date.day < 100 := by
  have hle := date.day_le
  have hlength : monthLength date.year date.month ≤ 31 := by
    unfold monthLength
    split_ifs <;> omega
  omega

/-- Dates of four-digit years are in the order of their digits. -/
theorem dateKey_lt {a b : Date} (hyear : b.year < 10000) (h : a < b) : dateKey a < dateKey b := by
  have hdigit : ∀ i j, i < j → j < 10 → Nat.digitChar i < Nat.digitChar j :=
    fun i j hij hj => digitChar_lt j hj i hij
  unfold dateKey
  rcases Date.lt_iff.1 h with hlt | ⟨hsame, hlt | ⟨hmonth, hlt⟩⟩
  · rw [List.append_assoc, List.append_assoc]
    exact append_lt_append_of_lt (numeral_lt hdigit hyear hlt) (by simp) _ _
  · have hmonth : b.month < 10 ^ 2 := Nat.lt_of_le_of_lt b.month_le (by decide)
    rw [hsame, List.append_assoc, List.append_assoc]
    exact List.append_left_lt
      (append_lt_append_of_lt (numeral_lt hdigit hmonth hlt) (by simp) _ _)
  · rw [hsame, hmonth]
    exact List.append_left_lt (numeral_lt hdigit (day_lt_hundred b) hlt)

/-- The seconds from the epoch to 1 January 10000. -/
def secondsToYear10000 : ℕ := 253402300800

/-- Before the year 10000 the key of a day is the eight digits of its date. -/
theorem exists_dateKey {secs : ℕ} (h : secs < secondsToYear10000) :
    ∃ date : Date, civilFromDays (secs / 86400) = (date.year, date.month, date.day) ∧
      date.dayNumber = epoch.dayNumber + secs / 86400 ∧ date.year < 10000 ∧
      utcDayKey secs = dateKey date := by
  rcases exists_civilDate (secs / 86400) with ⟨date, hcivil, hnumber⟩
  have hyear : date.year < 10000 := by
    by_contra hlate
    have hbefore : daysBeforeYear 10000 ≤ daysBeforeYear date.year :=
      daysBeforeYear_mono (Nat.le_of_not_lt hlate)
    have hlast := daysBeforeYear_eq 10000
    have hepoch := dayNumber_epoch
    unfold secondsToYear10000 at h
    unfold Date.dayNumber at hnumber
    unfold Date.dayNumber at hepoch
    omega
  refine ⟨date, hcivil, hnumber, hyear, ?_⟩
  have hmonth : date.month < 10 ^ 2 := Nat.lt_of_le_of_lt date.month_le (by decide)
  unfold utcDayKey dateKey
  rw [hcivil]
  dsimp only
  rw [padDecimal_eq_numeral (by decide) hyear, padDecimal_eq_numeral (by decide) hmonth,
    padDecimal_eq_numeral (by decide) (day_lt_hundred date)]

theorem length_utcDayKey {secs : ℕ} (h : secs < secondsToYear10000) : (utcDayKey secs).length = 8 := by
  rcases exists_dateKey h with ⟨date, -, -, -, hkey⟩
  rw [hkey]
  simp [dateKey]

/-- A later day has a larger key. -/
theorem utcDayKey_lt {s t : ℕ} (hs : s < secondsToYear10000) (ht : t < secondsToYear10000)
    (h : s / 86400 < t / 86400) : utcDayKey s < utcDayKey t := by
  rcases exists_dateKey hs with ⟨a, -, hnumberA, -, hkeyA⟩
  rcases exists_dateKey ht with ⟨b, -, hnumberB, hyear, hkeyB⟩
  have hlt : a < b := Date.dayNumber_strictMono.lt_iff_lt.1 (by omega)
  rw [hkeyA, hkeyB]
  exact dateKey_lt hyear hlt

/-- The key of an instant is the key of its day. -/
theorem utcDayKey_eq_iff {s t : ℕ} (hs : s < secondsToYear10000) (ht : t < secondsToYear10000) :
    utcDayKey s = utcDayKey t ↔ s / 86400 = t / 86400 := by
  constructor
  · intro hkey
    rcases Nat.lt_trichotomy (s / 86400) (t / 86400) with hlt | heq | hgt
    · have hless := utcDayKey_lt hs ht hlt
      rw [hkey] at hless
      exact absurd hless (List.lt_irrefl _)
    · exact heq
    · have hless := utcDayKey_lt ht hs hgt
      rw [hkey] at hless
      exact absurd hless (List.lt_irrefl _)
  · intro hday
    unfold utcDayKey
    rw [hday]

/-! ## Reading a counter key -/

/-- Eight bytes make sixteen hexadecimal digits. -/
theorem length_userShard {sha256 : Bytes → Bytes} (hsha : ∀ m, (sha256 m).length = 32)
    (userId : String) : (userShard sha256 userId).length = 16 := by
  unfold userShard
  rw [List.length_flatMap]
  simp [hsha]

/-- The day and the shard have fixed widths, so a counter key is read from its end. -/
theorem counterKey_inj {sha256 : Bytes → Bytes} (hsha : ∀ m, (sha256 m).length = 32) {s t : ℕ}
    (hs : s < secondsToYear10000) (ht : t < secondsToYear10000) {service service' u u' : String}
    (h : counterKey sha256 s service u = counterKey sha256 t service' u') :
    service = service' ∧ utcDayKey s = utcDayKey t ∧ userShard sha256 u = userShard sha256 u' := by
  have hlist := congrArg String.toList h
  unfold counterKey at hlist
  simp only [String.toList_append, String.toList_ofList] at hlist
  -- The shard goes first, then the day; what is left is the name between the prefix and a colon.
  rcases List.append_inj' hlist (by rw [length_userShard hsha, length_userShard hsha]) with
    ⟨hfront, hshard⟩
  rcases List.append_inj' (List.append_cancel_right hfront)
    (by rw [length_utcDayKey hs, length_utcDayKey ht]) with ⟨hname, hday⟩
  have hservice := List.append_cancel_left (List.append_cancel_right hname)
  exact ⟨String.toList_injective hservice, hday, hshard⟩

/-- Before the year 10000 the day of an instant is its date in the Gregorian calendar, written with eight
digits that agree for two instants exactly within a day and grow with the days; and counter keys agree
only for the same service, day and user shard, whatever the service is called. -/
theorem day_key_is_gregorian_date :
    (∀ secs < secondsToYear10000, ∃ date : Date,
      civilFromDays (secs / 86400) = (date.year, date.month, date.day) ∧
        date.dayNumber = epoch.dayNumber + secs / 86400 ∧ utcDayKey secs = dateKey date) ∧
    (∀ s < secondsToYear10000, ∀ t < secondsToYear10000,
      (utcDayKey s).length = 8 ∧ (utcDayKey s = utcDayKey t ↔ s / 86400 = t / 86400) ∧
        (s / 86400 < t / 86400 → utcDayKey s < utcDayKey t)) ∧
    ∀ sha256 : Bytes → Bytes, (∀ m, (sha256 m).length = 32) →
      ∀ s < secondsToYear10000, ∀ t < secondsToYear10000, ∀ service service' u u',
        counterKey sha256 s service u = counterKey sha256 t service' u' →
          service = service' ∧ s / 86400 = t / 86400 ∧ userShard sha256 u = userShard sha256 u' := by
  refine ⟨?_, ?_, ?_⟩
  · intro secs hsecs
    rcases exists_dateKey hsecs with ⟨date, hcivil, hnumber, -, hkey⟩
    exact ⟨date, hcivil, hnumber, hkey⟩
  · intro s hs t ht
    exact ⟨length_utcDayKey hs, utcDayKey_eq_iff hs ht, utcDayKey_lt hs ht⟩
  · intro sha256 hsha s hs t ht service service' u u' hkey
    rcases counterKey_inj hsha hs ht hkey with ⟨hservice, hday, hshard⟩
    exact ⟨hservice, (utcDayKey_eq_iff hs ht).1 hday, hshard⟩

/-- SHA-256 at the one user of the example below. -/
def aliceSha256 (message : Bytes) : Bytes :=
  if message = strBytes "alice" then
    [0x2b, 0xd8, 0x06, 0xc9, 0x7f, 0x0e, 0x00, 0xaf, 0x1a, 0x1f, 0xc3, 0x32, 0x8f, 0xa7, 0x63, 0xa9,
      0x26, 0x97, 0x23, 0xc8, 0xdb, 0x8f, 0xac, 0x4f, 0x93, 0xaf, 0x71, 0xdb, 0x18, 0x6d, 0x6e, 0x90]
  else List.replicate 32 0

/-- The first and the last second of 29 February 2000, and a service whose name looks like a key. -/
theorem leap_day_of_century :
    (∃ date : Date, (date.year, date.month, date.day) = (2000, 2, 29) ∧
      date.dayNumber = epoch.dayNumber + 11016 ∧ utcDayKey 951782400 = dateKey date) ∧
    utcDayKey 951782400 = "20000229".toList ∧ utcDayKey 951868799 = "20000229".toList ∧
    utcDayKey 951868799 < utcDayKey 951868800 ∧
    (counterKey aliceSha256 951782400 "api:20000229" "alice" =
      counterKey aliceSha256 951868799 "api:20000229" "alice" →
        951782400 / 86400 = 951868799 / 86400) := by
  rcases day_key_is_gregorian_date with ⟨hdate, hdays, hkeys⟩
  have hsha : ∀ m, (aliceSha256 m).length = 32 := by
    intro m
    unfold aliceSha256
    split_ifs <;> rfl
  have hfirst : utcDayKey 951782400 = "20000229".toList := by decide
  -- The last second has the key of the first, and the next one a larger key.
  have hlast : utcDayKey 951868799 = utcDayKey 951782400 :=
    (hdays _ (by decide) _ (by decide)).2.1.2 (by decide)
  refine ⟨?_, hfirst, hlast.trans hfirst, ?_, fun hkey => ?_⟩
  · rcases hdate 951782400 (by decide) with ⟨date, hcivil, hnumber, hkey⟩
    exact ⟨date, hcivil.symm.trans (by decide), hnumber, hkey⟩
  · exact (hdays _ (by decide) _ (by decide)).2.2 (by decide)
  · exact (hkeys aliceSha256 hsha _ (by decide) _ (by decide) _ _ _ _ hkey).2.1

end Quota
end GatewayEdge
