import Mathlib.Tactic.IntervalCases

/-!
# Dates and Times of Day

The proleptic Gregorian calendar, as far as it is needed to write a point in
time in the form of RFC 3339 and to read one in any zone.

Days are counted from a first of March, so that the day a leap year adds is
the last of its year. A cycle of 400 years has 146097 days, and within it the
year, the month and the day follow from the number of the day by division. The
two facts that make this work, that a day lies in its year and in its month,
are `yearOf_bounds` and `monthOf_bounds`; that the day exists in the calendar
and that the count can be taken back are then arithmetic.

## Main definitions

* `Calendar.civil`, `Calendar.dayNumber`: Dates and days since the first of
  March of the year 0.
* `Calendar.ofDays`, `Calendar.toDays`: Dates and days since 1970.
* `Calendar.dateTime`, `Calendar.fraction`: A date, a time of day and a fraction
  of a second in the form of RFC 3339.
* `Calendar.format`, `Calendar.parse`: Times in the form of RFC 3339.

## Theorems

* `Calendar.toDays_civil`: Counting days can be taken back.
* `Calendar.civil_valid`: The day exists in the calendar.
* `Calendar.parse_dateTime`, `Calendar.parse_format`: What is written can be
  read.
-/

namespace Calendar

/-! ## Days -/

/-- The days of a cycle before a year of it. Years begin in March. -/
def yearStart (yoe : Nat) : Nat := 365 * yoe + yoe / 4 - yoe / 100

/-- The year within the cycle of a day of the cycle: the century, then the
    group of four years, then the year of the group. The last century and the
    last year of a group are the ones that may be a day longer. -/
def yearOf (doe : Nat) : Nat :=
  let century := min (doe / 36524) 3
  let group := (doe - 36524 * century) / 1461
  100 * century + 4 * group + min ((doe - 36524 * century - 1461 * group) / 365) 3

/-- The days of a year before a month of it, from March. -/
def monthStart (mp : Nat) : Nat := (153 * mp + 2) / 5

/-- The month, from March, of a day of the year. -/
def monthOf (doy : Nat) : Nat := (5 * doy + 2) / 153

/-- The year, month and day of a number of days since the first of March of the
    year 0. -/
def civil (z : Nat) : Nat × Nat × Nat :=
  let yoe := yearOf (z % 146097)
  let doy := z % 146097 - yearStart yoe
  let mp := monthOf doy
  (z / 146097 * 400 + yoe + (if mp < 10 then 0 else 1), if mp < 10 then mp + 3 else mp - 9,
    doy - monthStart mp + 1)

/-- The number of days since the first of March of the year 0 of a date. -/
def dayNumber (year month day : Nat) : Nat :=
  let y := if month ≤ 2 then year - 1 else year
  let mp := if month ≤ 2 then month + 9 else month - 3
  y / 400 * 146097 + yearStart (y % 400) + monthStart mp + (day - 1)

/-- The year, month and day of a number of days since the first of January
    1970. -/
def ofDays (days : Nat) : Nat × Nat × Nat := civil (days + 719468)

/-- The number of days since the first of January 1970 of a date. It is counted
    in the next cycle, where the first months of the year 0 have a March before
    them. -/
def toDays (year month day : Nat) : Int := (dayNumber (year + 400) month day : Int) - 865565

def isLeap (year : Nat) : Bool := year % 4 == 0 && (year % 100 != 0 || year % 400 == 0)

def daysIn (month year : Nat) : Nat :=
  if month = 2 then if isLeap year then 29 else 28
  else if month = 4 ∨ month = 6 ∨ month = 9 ∨ month = 11 then 30
  else 31

/-- The days before a year, by its century, its group and its place in it. -/
theorem yearStart_eq (century group y : Nat) (hgroup : group < 25) (hy : y < 4) :
    yearStart (100 * century + 4 * group + y) = 36524 * century + 1461 * group + 365 * y := by
  unfold yearStart
  omega

/-- A day of the cycle lies in its year. -/
theorem yearOf_bounds (doe : Nat) (h : doe < 146097) :
    yearOf doe < 400 ∧ yearStart (yearOf doe) ≤ doe ∧
      (doe < yearStart (yearOf doe) + 365 ∨
        doe = yearStart (yearOf doe) + 365 ∧ isLeap (yearOf doe + 1) = true) := by
  unfold yearOf
  dsimp only
  generalize hcentury : min (doe / 36524) 3 = century
  generalize hgroup : (doe - 36524 * century) / 1461 = group
  generalize hy : min ((doe - 36524 * century - 1461 * group) / 365) 3 = y
  have hbounds : century ≤ 3 ∧ group < 25 ∧ y < 4 := by omega
  rw [yearStart_eq century group y hbounds.2.1 hbounds.2.2]
  unfold isLeap
  simp only [Bool.and_eq_true, beq_iff_eq, Bool.or_eq_true, bne_iff_ne]
  omega

/-- A day of the year lies in its month. -/
theorem monthOf_bounds (doy : Nat) (h : doy ≤ 365) :
    monthOf doy ≤ 11 ∧ monthStart (monthOf doy) ≤ doy ∧
      doy < monthStart (monthOf doy + 1) := by
  unfold monthOf monthStart
  omega

/-- The parts of the date of a day. -/
theorem civil_parts (z : Nat) :
    ∃ cycle yoe mp day, z = 146097 * cycle + yearStart yoe + monthStart mp + day ∧
      yoe < 400 ∧ mp ≤ 11 ∧
      civil z = (400 * cycle + yoe + (if mp < 10 then 0 else 1),
        if mp < 10 then mp + 3 else mp - 9, day + 1) ∧
      monthStart mp + day < monthStart (mp + 1) ∧
      (monthStart mp + day < 365 ∨ isLeap (yoe + 1) = true ∧ monthStart mp + day = 365) := by
  have hday := Nat.div_add_mod z 146097
  have hyear := yearOf_bounds (z % 146097) (Nat.mod_lt _ (by decide))
  unfold civil
  dsimp only
  -- Cycle, year and month are taken apart one after the other, each by its bounds.
  generalize z % 146097 = doe at *
  generalize yearOf doe = yoe at *
  have hmonth := monthOf_bounds (doe - yearStart yoe) (by omega)
  generalize monthOf (doe - yearStart yoe) = mp at *
  refine ⟨z / 146097, yoe, mp, doe - yearStart yoe - monthStart mp, ?_, hyear.1,
    hmonth.1, ?_, ?_, ?_⟩
  · omega
  · rw [Nat.mul_comm]
  · omega
  · rcases hyear.2.2 with hshort | ⟨hlast, hleap⟩
    · exact .inl (by omega)
    · exact .inr ⟨hleap, by omega⟩

/-- Counting days can be taken back. -/
theorem dayNumber_civil (z : Nat) : dayNumber (civil z).1 (civil z).2.1 (civil z).2.2 = z := by
  rcases civil_parts z with ⟨cycle, yoe, mp, day, hdays, hyoe, hmp, hparts, -, -⟩
  rw [hparts]
  unfold dayNumber
  dsimp only
  -- The internal year begins in March, so January and February count to the next one.
  by_cases hspring : mp < 10
  · have hlate : ¬ mp + 3 ≤ 2 := by omega
    have hy : (400 * cycle + yoe + 0) / 400 = cycle ∧ (400 * cycle + yoe + 0) % 400 = yoe := by
      omega
    have hm : mp + 3 - 3 = mp := by omega
    rw [if_pos hspring, if_pos hspring, if_neg hlate, if_neg hlate, hy.1, hy.2, hm]
    omega
  · have hearly : mp - 9 ≤ 2 := by omega
    have hy : (400 * cycle + yoe + 1 - 1) / 400 = cycle ∧
        (400 * cycle + yoe + 1 - 1) % 400 = yoe := by omega
    have hm : mp - 9 + 9 = mp := by omega
    rw [if_neg hspring, if_neg hspring, if_pos hearly, if_pos hearly, hy.1, hy.2, hm]
    omega

theorem dayNumber_cycle (year month day : Nat) (h : 0 < year ∨ 2 < month) :
    dayNumber (year + 400) month day = dayNumber year month day + 146097 := by
  unfold dayNumber
  dsimp only
  have hstep : (if month ≤ 2 then year + 400 - 1 else year + 400) =
      (if month ≤ 2 then year - 1 else year) + 400 := by
    split_ifs <;> omega
  rw [hstep]
  generalize (if month ≤ 2 then year - 1 else year) = y
  have hcycle : (y + 400) / 400 = y / 400 + 1 ∧ (y + 400) % 400 = y % 400 := by omega
  rw [hcycle.1, hcycle.2]
  omega

theorem toDays_civil (z : Nat) :
    toDays (civil z).1 (civil z).2.1 (civil z).2.2 = (z : Int) - 719468 := by
  have hmarch : 0 < (civil z).1 ∨ 2 < (civil z).2.1 := by
    rcases civil_parts z with ⟨cycle, yoe, mp, day, -, -, -, hparts, -, -⟩
    rw [hparts]
    dsimp only
    split_ifs <;> omega
  unfold toDays
  rw [dayNumber_cycle _ _ _ hmarch, dayNumber_civil]
  omega

/-- The day exists in the calendar. -/
theorem civil_valid (z : Nat) :
    (1 ≤ (civil z).2.1 ∧ (civil z).2.1 ≤ 12) ∧ 1 ≤ (civil z).2.2 ∧
      (civil z).2.2 ≤ daysIn (civil z).2.1 (civil z).1 := by
  rcases civil_parts z with ⟨cycle, yoe, mp, day, -, hyoe, hmp, hparts, hday, hleap⟩
  rw [hparts]
  dsimp only
  have hyear : isLeap (400 * cycle + yoe + 1) = isLeap (yoe + 1) := by
    have hmods : (400 * cycle + yoe + 1) % 4 = (yoe + 1) % 4 ∧
        (400 * cycle + yoe + 1) % 100 = (yoe + 1) % 100 ∧
        (400 * cycle + yoe + 1) % 400 = (yoe + 1) % 400 := by omega
    unfold isLeap
    rw [hmods.1, hmods.2.1, hmods.2.2]
  unfold daysIn
  -- The months are gone through one by one; February ends with the year.
  by_cases hfebruary : mp = 11
  · subst hfebruary
    have hmonth : monthStart 11 = 337 := rfl
    simp only [Nat.reduceLT, if_false, Nat.reduceSub, if_true, hyear]
    rcases hleap with hshort | ⟨hleap, hlast⟩
    · refine ⟨by omega, by omega, ?_⟩
      by_cases hlong : isLeap (yoe + 1) = true
      · rw [if_pos hlong]
        omega
      · rw [if_neg hlong]
        omega
    · rw [if_pos hleap]
      omega
  · unfold monthStart at hday
    interval_cases mp <;> simp at * <;> omega

/-! ## Writing -/

/-- The decimal digit of a number below ten. -/
def digit (n : Nat) : Char := Char.ofNat (48 + n % 10)

/-- The value of a decimal digit. -/
def digitValue (c : Char) : Option Nat :=
  if '0' ≤ c ∧ c ≤ '9' then some (c.toNat - 48) else none

/-- A number in two digits. -/
def pad2 (n : Nat) : List Char := [digit (n / 10), digit n]

/-- A number below ten thousand in four digits. -/
def pad4 (n : Nat) : List Char := [digit (n / 1000), digit (n / 100), digit (n / 10), digit n]

/-- A date and the second of a day, after the digits of the year. -/
def dateTime (year : List Char) (month day clock : Nat) : List Char :=
  year ++ '-' :: pad2 month ++ '-' :: pad2 day ++ 'T' :: pad2 (clock / 3600) ++ ':' ::
    pad2 (clock / 60 % 60) ++ ':' :: pad2 (clock % 60)

/-- The first `k` digits after the point, without trailing zeros. -/
def fractionDigits : Nat → Nat → List Char
  | 0, _ => []
  | k + 1, n => if n = 0 then [] else digit (n / 10 ^ k) :: fractionDigits k (n % 10 ^ k)

/-- A fraction of a second in nanoseconds; nothing is written for none. -/
def fraction (ns : Nat) : List Char := if ns = 0 then [] else '.' :: fractionDigits 9 ns

/-- A point in time, in seconds since 1970, as a date and time of day in
    UTC. -/
def format (seconds : Nat) : List Char :=
  let date := ofDays (seconds / 86400)
  dateTime (pad4 date.1) date.2.1 date.2.2 (seconds % 86400) ++ ['Z']

theorem format_length (seconds : Nat) : (format seconds).length = 20 := by
  unfold format dateTime pad4 pad2
  simp only [List.length_append, List.length_cons, List.length_nil]

/-! ## Reading -/

/-- The value of a list of digits. -/
def number (digits : List Char) : Option Nat :=
  digits.foldlM (fun n c => (digitValue c).map (fun d => 10 * n + d)) 0

def isDigit (c : Char) : Bool := (digitValue c).isSome

/-- The hour at the beginning of a text, in one digit or two. -/
def parseHour : List Char → Option (Nat × List Char)
  | c :: d :: rest => (digitValue c).map (fun n =>
      match digitValue d with
      | some m => (10 * n + m, rest)
      | none => (n, d :: rest))
  | _ => none

/-- The second of the day at the beginning of a text. -/
def parseClock (text : List Char) : Option (Nat × List Char) := do
  let (hour, rest) ← parseHour text
  match rest with
  | ':' :: n1 :: n2 :: ':' :: s1 :: s2 :: rest => do
      let minute ← number [n1, n2]
      let second ← number [s1, s2]
      if hour < 24 ∧ minute < 60 ∧ second < 60 then
        some (hour * 3600 + minute * 60 + second, rest)
      else none
  | _ => none

/-- The value of the digits after the point, to `k` places. -/
def fractionValue : Nat → List Char → Nat
  | k + 1, c :: rest => (digitValue c).getD 0 * 10 ^ k + fractionValue k rest
  | _, _ => 0

/-- The nanoseconds at the beginning of a text, after a point or a comma. They
    may be left out, and digits after the ninth count for nothing. -/
def parseFraction : List Char → Nat × List Char
  | mark :: rest =>
      if (mark = '.' ∨ mark = ',') ∧ rest.takeWhile isDigit ≠ [] then
        (fractionValue 9 (rest.takeWhile isDigit), rest.dropWhile isDigit)
      else (0, mark :: rest)
  | [] => (0, [])

/-- The seconds a zone is ahead of UTC. An offset may be of 24 hours, and its
    minutes sixty. -/
def parseZone : List Char → Option Int
  | ['Z'] => some 0
  | [sign, h1, h2, ':', m1, m2] => do
      let hours ← number [h1, h2]
      let minutes ← number [m1, m2]
      if hours ≤ 24 ∧ minutes ≤ 60 then
        if sign = '+' then some (hours * 3600 + minutes * 60)
        else if sign = '-' then some (-(hours * 3600 + minutes * 60))
        else none
      else none
  | _ => none

/-- Read a time, as the nanoseconds since 1970. The fields have to be in range,
    and there is to be a zone and nothing after it. -/
def parse : List Char → Option Int
  | y1 :: y2 :: y3 :: y4 :: '-' :: m1 :: m2 :: '-' :: d1 :: d2 :: 'T' :: text => do
      let year ← number [y1, y2, y3, y4]
      let month ← number [m1, m2]
      let day ← number [d1, d2]
      let (clock, rest) ← parseClock text
      let zone ← parseZone (parseFraction rest).2
      if (1 ≤ month ∧ month ≤ 12) ∧ 1 ≤ day ∧ day ≤ daysIn month year then
        some ((toDays year month day * 86400 + clock - zone) * 1000000000 + (parseFraction rest).1)
      else none
  | _ => none

theorem digitValue_digit (n : Nat) : digitValue (digit n) = some (n % 10) := by
  have hlt : n % 10 < 10 := Nat.mod_lt _ (by decide)
  unfold digitValue digit
  generalize n % 10 = d at *
  interval_cases d <;> rfl

theorem number_pad2 (n : Nat) (h : n < 100) : number (pad2 n) = some n := by
  simp only [number, pad2, List.foldlM_cons, List.foldlM_nil, digitValue_digit, Option.map_some,
    Option.bind_eq_bind, Option.bind_some, Option.pure_def, Option.some.injEq]
  omega

theorem number_pad4 (n : Nat) (h : n < 10000) : number (pad4 n) = some n := by
  simp only [number, pad4, List.foldlM_cons, List.foldlM_nil, digitValue_digit, Option.map_some,
    Option.bind_eq_bind, Option.bind_some, Option.pure_def, Option.some.injEq]
  omega

theorem daysIn_le (month year : Nat) : daysIn month year ≤ 31 := by
  unfold daysIn
  split_ifs <;> decide

/-- A time of day that is written can be read. -/
theorem parseClock_pad2 (clock : Nat) (h : clock < 86400) (rest : List Char) :
    parseClock (pad2 (clock / 3600) ++ ':' :: pad2 (clock / 60 % 60) ++ ':' ::
      pad2 (clock % 60) ++ rest) = some (clock, rest) := by
  have hhour : parseHour (pad2 (clock / 3600) ++ ':' :: pad2 (clock / 60 % 60) ++ ':' ::
      pad2 (clock % 60) ++ rest) = some (clock / 3600, ':' :: pad2 (clock / 60 % 60) ++ ':' ::
      pad2 (clock % 60) ++ rest) := by
    unfold pad2
    simp only [List.cons_append, List.nil_append, parseHour, digitValue_digit, Option.map_some,
      Option.some.injEq, Prod.mk.injEq, and_true]
    omega
  have hread : ∀ hour minute second : Nat,
      (match ':' :: pad2 minute ++ ':' :: pad2 second ++ rest with
        | ':' :: n1 :: n2 :: ':' :: s1 :: s2 :: rest => (do
            let minute ← number [n1, n2]
            let second ← number [s1, s2]
            if hour < 24 ∧ minute < 60 ∧ second < 60 then
              some (hour * 3600 + minute * 60 + second, rest)
            else none)
        | _ => none) = (number (pad2 minute)).bind (fun minute =>
          (number (pad2 second)).bind (fun second =>
            if hour < 24 ∧ minute < 60 ∧ second < 60 then
              some (hour * 3600 + minute * 60 + second, rest)
            else none)) := fun _ _ _ => rfl
  have hrange : clock / 3600 < 24 ∧ clock / 60 % 60 < 60 ∧ clock % 60 < 60 := by omega
  unfold parseClock
  rw [hhour]
  refine (hread _ _ _).trans ?_
  rw [number_pad2 _ (by omega), number_pad2 _ (by omega), Option.bind_some, Option.bind_some,
    if_pos hrange]
  simp only [Option.some.injEq, Prod.mk.injEq, and_true]
  omega

theorem fractionDigits_digits (k n : Nat) : ∀ c ∈ fractionDigits k n, isDigit c = true := by
  induction k generalizing n with
  | zero => simp [fractionDigits]
  | succ k ih =>
      unfold fractionDigits
      split
      · simp
      · intro c hc
        rcases List.mem_cons.mp hc with rfl | hc
        · unfold isDigit
          rw [digitValue_digit]
          rfl
        · exact ih _ c hc

theorem fractionValue_digits (k n : Nat) (hn : n < 10 ^ k) :
    fractionValue k (fractionDigits k n) = n := by
  induction k generalizing n with
  | zero =>
      have hzero : n = 0 := by omega
      rw [hzero]
      rfl
  | succ k ih =>
      unfold fractionDigits
      by_cases hzero : n = 0
      · rw [if_pos hzero, hzero]
        rfl
      · have hdigit : n / 10 ^ k < 10 := by
          rw [Nat.div_lt_iff_lt_mul (Nat.pow_pos (by decide))]
          rw [Nat.pow_succ] at hn
          omega
        rw [if_neg hzero, fractionValue, digitValue_digit,
          ih _ (Nat.mod_lt _ (Nat.pow_pos (by decide))), Option.getD_some,
          Nat.mod_eq_of_lt hdigit, Nat.mul_comm]
        exact Nat.div_add_mod n (10 ^ k)

/-- A fraction that is written can be read, up to the zone. -/
theorem parseFraction_fraction (ns : Nat) (hns : ns < 1000000000) :
    parseFraction (fraction ns ++ ['Z']) = (ns, ['Z']) := by
  unfold fraction
  by_cases hzero : ns = 0
  · rw [if_pos hzero, hzero]
    rfl
  · have hall := fractionDigits_digits 9 ns
    have htake : (fractionDigits 9 ns ++ ['Z']).takeWhile isDigit = fractionDigits 9 ns := by
      rw [List.takeWhile_append_of_pos hall]
      exact List.append_nil _
    have hdrop : (fractionDigits 9 ns ++ ['Z']).dropWhile isDigit = ['Z'] := by
      rw [List.dropWhile_append_of_pos hall]
      rfl
    have hvalue := fractionValue_digits 9 ns hns
    have hne : fractionDigits 9 ns ≠ [] := by
      intro hnil
      rw [hnil] at hvalue
      exact hzero hvalue.symm
    rw [if_neg hzero, List.cons_append, parseFraction, htake, hdrop, if_pos ⟨.inl rfl, hne⟩, hvalue]

/-- What is written for a year of four digits can be read. -/
theorem parse_dateTime (year month day clock ns : Nat) (hyear : year < 10000)
    (hmonth : 1 ≤ month ∧ month ≤ 12) (hday : 1 ≤ day ∧ day ≤ daysIn month year)
    (hclock : clock < 86400) (hns : ns < 1000000000) :
    parse (dateTime (pad4 year) month day clock ++ (fraction ns ++ ['Z'])) =
      some ((toDays year month day * 86400 + clock) * 1000000000 + ns) := by
  have hlong := daysIn_le month year
  -- The date has fixed places, so each field is read off its own characters.
  have hread : ∀ text : List Char,
      parse (pad4 year ++ '-' :: pad2 month ++ '-' :: pad2 day ++ 'T' :: text) =
      (number (pad4 year)).bind (fun year => (number (pad2 month)).bind (fun month =>
        (number (pad2 day)).bind (fun day => (parseClock text).bind (fun p =>
          (parseZone (parseFraction p.2).2).bind (fun zone =>
            if (1 ≤ month ∧ month ≤ 12) ∧ 1 ≤ day ∧ day ≤ daysIn month year then
              some ((toDays year month day * 86400 + p.1 - zone) * 1000000000 +
                (parseFraction p.2).1)
            else none))))) := fun _ => rfl
  have htext : dateTime (pad4 year) month day clock ++ (fraction ns ++ ['Z']) =
      pad4 year ++ '-' :: pad2 month ++ '-' :: pad2 day ++ 'T' ::
        (pad2 (clock / 3600) ++ ':' :: pad2 (clock / 60 % 60) ++ ':' :: pad2 (clock % 60) ++
          (fraction ns ++ ['Z'])) := by
    unfold dateTime
    simp only [List.append_assoc, List.cons_append]
  rw [htext, hread, number_pad4 year hyear, number_pad2 month (by omega),
    number_pad2 day (by omega), parseClock_pad2 clock hclock]
  simp only [Option.bind_some]
  rw [parseFraction_fraction ns hns]
  simp only [parseZone, Option.bind_some]
  rw [if_pos ⟨hmonth, hday⟩, Int.sub_zero]

/-- What is written can be read, for a year of four digits. -/
theorem parse_format (seconds : Nat) (hyear : (ofDays (seconds / 86400)).1 < 10000) :
    parse (format seconds) = some ((seconds : Int) * 1000000000) := by
  have hvalid := civil_valid (seconds / 86400 + 719468)
  have hread := parse_dateTime _ _ _ (seconds % 86400) 0 hyear hvalid.1 hvalid.2
    (Nat.mod_lt _ (by decide)) (by decide)
  have hdays := toDays_civil (seconds / 86400 + 719468)
  rw [← ofDays] at hread hdays
  refine hread.trans ?_
  rw [hdays, Option.some.injEq]
  omega

example : parse "1970-01-01T1:00:00,5+01:00".toList = some 500000000 := by decide

end Calendar
