import Cuttlegate.Adapters.Routes
import Cuttlegate.Lib.Calendar

/-!
# Cursors

The texts in which the two histories hand their clients a point in time, to be
handed back with the next request. The evaluations are continued at a time in
full seconds, as RFC 3339 writes it. The audit log writes the fraction as well
and packs the text into base64.

The filters take the zero time for no bound, so times count from there: the
nanoseconds since the beginning of the year 1, and no time before it is among
them. All texts are written in UTC. A year beyond 9999 is written with all of
its digits, and the reader, which expects four, refuses it.

## Main definitions

* `dateOf`, `clockOf`: The date and the second of the day of a time.
* `formatRFC3339`, `formatRFC3339Nano`, `parseRFC3339`: Times as text.
* `decodeBase64`: The inverse of `base64RawURL`.
* `encodeCursor`, `decodeCursor`: The cursors of the audit log.

## Theorems

* `parse_dateTime`: What is written for a year of four digits can be read.
* `parse_late`: What is written for a later year cannot.
* `decodeBase64_encode`: Base64 can be read.
* `parse_formatRFC3339`, `decode_encodeCursor`: What a cursor comes back as.
-/

namespace Cuttlegate

/-! ## Times as text -/

/-- The days from the first of March of the year 0 to the zero time. -/
def zeroDay : Nat := 306

/-- The year, month and day of a time. -/
def dateOf (t : Time) : Nat × Nat × Nat := Calendar.civil (t / (86400 * second) + zeroDay)

/-- The second of the day of a time. -/
def clockOf (t : Time) : Nat := t / second % 86400

/-- A year in four digits, or in as many as it has. -/
def yearText (year : Nat) : List Char :=
  if year < 10000 then Calendar.pad4 year
  else Nat.toDigits 10 (year / 10000) ++ Calendar.pad4 year

/-- The date and the time of day, down to the second. -/
def dateTime (t : Time) : List Char :=
  Calendar.dateTime (yearText (dateOf t).1) (dateOf t).2.1 (dateOf t).2.2 (clockOf t)

def formatRFC3339 (t : Time) : List Char := dateTime t ++ ['Z']

def formatRFC3339Nano (t : Time) : List Char :=
  dateTime t ++ (Calendar.fraction (t % second) ++ ['Z'])

/-- The time from the zero time to 1970. -/
def unixEpoch : Time := 719162 * 86400 * second

/-- Read a time. A fraction is read whether or not it is expected. -/
def parseRFC3339 (text : List Char) : Option Time :=
  (Calendar.parse text).bind (fun ns =>
    if 0 ≤ ns + unixEpoch then some (ns + unixEpoch).toNat else none)

/-- What is written for a year of four digits can be read, with the fraction
    that follows. -/
theorem parse_dateTime (t : Time) (hyear : (dateOf t).1 < 10000) (ns : Nat) (hns : ns < second) :
    parseRFC3339 (dateTime t ++ (Calendar.fraction ns ++ ['Z'])) = some (toSecond t + ns) := by
  have hvalid := Calendar.civil_valid (t / (86400 * second) + zeroDay)
  have hdays := Calendar.toDays_civil (t / (86400 * second) + zeroDay)
  rw [← dateOf] at hvalid hdays
  have hclock : clockOf t < 86400 := Nat.mod_lt _ (by decide)
  have hread := Calendar.parse_dateTime _ _ _ (clockOf t) ns hyear hvalid.1 hvalid.2 hclock hns
  -- Days from the zero time and days from 1970 differ by the days between them.
  have hsum : ((((t / (86400 * second) + zeroDay : Nat) : Int) - 719468) * 86400 +
      (clockOf t : Int)) * 1000000000 + (ns : Int) + (unixEpoch : Int) =
        ((toSecond t + ns : Nat) : Int) := by
    simp only [toSecond, clockOf, zeroDay, unixEpoch, second]
    omega
  unfold parseRFC3339 dateTime yearText
  rw [if_pos hyear, hread, hdays, Option.bind_some, hsum, if_pos (Int.natCast_nonneg _),
    Int.toNat_natCast]

/-- The fifth character of a later year is a digit, where the reader expects a
    hyphen. -/
theorem parse_late (t : Time) (hyear : ¬ (dateOf t).1 < 10000) (rest : List Char) :
    parseRFC3339 (dateTime t ++ rest) = none := by
  have hdigit : ∀ c ∈ yearText (dateOf t).1, c ≠ '-' := by
    intro c hc
    unfold yearText Calendar.pad4 at hc
    rw [if_neg hyear] at hc
    have hlow : ∀ n, Calendar.digit n ≠ '-' := by
      intro n hn
      have hvalue := Calendar.digitValue_digit n
      have hhyphen : Calendar.digitValue '-' = none := by decide
      rw [hn, hhyphen] at hvalue
      exact (nomatch hvalue)
    rcases List.mem_append.mp hc with hc | hc
    · have hisDigit := Nat.isDigit_of_mem_toDigits (by decide) (by decide) hc
      rintro rfl
      exact absurd hisDigit (by decide)
    · simp only [List.mem_cons, List.not_mem_nil, or_false] at hc
      rcases hc with rfl | rfl | rfl | rfl <;> exact hlow _
  have hlong : 5 ≤ (yearText (dateOf t).1).length := by
    unfold yearText Calendar.pad4
    rw [if_neg hyear, List.length_append]
    have hpos : 0 < (Nat.toDigits 10 ((dateOf t).1 / 10000)).length := Nat.length_toDigits_pos
    simp only [List.length_cons, List.length_nil]
    omega
  -- Whatever else the text is, it has five characters, and the fifth is no hyphen.
  have hrefuse : ∀ (a b c d e : Char) (l : List Char), e ≠ '-' →
      parseRFC3339 (a :: b :: c :: d :: e :: l) = none := by
    intro a b c d e l he
    unfold parseRFC3339 Calendar.parse
    split
    · rename_i heq
      simp only [List.cons.injEq] at heq
      exact absurd heq.2.2.2.2.1 he
    · rfl
  unfold dateTime Calendar.dateTime
  generalize yearText (dateOf t).1 = year at *
  match year, hlong, hdigit with
  | a :: b :: c :: d :: e :: l, _, hdigit =>
      simp only [List.cons_append]
      exact hrefuse a b c d e _ (hdigit e (by simp))

/-- A time that was cut off to the second comes back as it was written. -/
theorem parse_formatRFC3339 (t : Time) :
    parseRFC3339 (formatRFC3339 t) = if (dateOf t).1 < 10000 then some (toSecond t) else none := by
  unfold formatRFC3339
  by_cases hyear : (dateOf t).1 < 10000
  · have hread := parse_dateTime t hyear 0 (by decide)
    rw [Nat.add_zero] at hread
    rw [if_pos hyear, ← hread]
    rfl
  · rw [if_neg hyear, parse_late t hyear]

theorem parse_formatRFC3339Nano (t : Time) :
    parseRFC3339 (formatRFC3339Nano t) = if (dateOf t).1 < 10000 then some t else none := by
  unfold formatRFC3339Nano
  by_cases hyear : (dateOf t).1 < 10000
  · have hns : t % second < second := Nat.mod_lt _ (by decide)
    have hsum : toSecond t + t % second = t := Nat.sub_add_cancel (Nat.mod_le t second)
    rw [if_pos hyear, parse_dateTime t hyear _ hns, hsum]
  · rw [if_neg hyear, parse_late t hyear]

/-! ## Base64 -/

/-- The value of a character of the URL-safe alphabet. -/
def base64Value (c : Char) : Option Nat :=
  if 'A' ≤ c ∧ c ≤ 'Z' then some (c.toNat - 65)
  else if 'a' ≤ c ∧ c ≤ 'z' then some (c.toNat - 71)
  else if '0' ≤ c ∧ c ≤ '9' then some (c.toNat + 4)
  else if c = '-' then some 62
  else if c = '_' then some 63
  else none

/-- Groups of six bits as bytes. Bits that are left over are not looked at. -/
def base64Bytes : List Nat → Option (List UInt8)
  | p :: q :: r :: s :: rest =>
      let n := ((p * 64 + q) * 64 + r) * 64 + s
      (base64Bytes rest).map (fun bs =>
        UInt8.ofNat (n / 65536) :: UInt8.ofNat (n / 256) :: UInt8.ofNat n :: bs)
  | [p, q, r] =>
      let n := (p * 64 + q) * 64 + r
      some [UInt8.ofNat (n / 1024), UInt8.ofNat (n / 4)]
  | [p, q] => some [UInt8.ofNat ((p * 64 + q) / 16)]
  | [_] => none
  | [] => some []

/-- The reader skips the ends of lines. -/
def decodeBase64 (text : List Char) : Option (List UInt8) :=
  ((text.filter (fun c => c ≠ '\n' ∧ c ≠ '\r')).mapM base64Value).bind base64Bytes

theorem base64Char_spec (n : Nat) (hn : n < 64) :
    base64Value (base64Char n) = some n ∧ base64Char n ≠ '\n' ∧ base64Char n ≠ '\r' := by
  have hall : ∀ n < 64, base64Value (base64Char n) = some n ∧ base64Char n ≠ '\n' ∧
      base64Char n ≠ '\r' := by decide
  exact hall n hn

theorem ofNat_byte (n : Nat) (a : UInt8) (h : n % 256 = a.toNat) : UInt8.ofNat n = a := by
  apply UInt8.toNat_inj.mp
  rw [UInt8.toNat_ofNat']
  exact h

/-- What the characters of the encoding stand for, and that none ends a line. -/
theorem base64RawURL_values (bytes : List UInt8) :
    ∃ values, (base64RawURL bytes).mapM base64Value = some values ∧
      base64Bytes values = some bytes ∧ ∀ c ∈ base64RawURL bytes, c ≠ '\n' ∧ c ≠ '\r' := by
  induction bytes using base64RawURL.induct with
  | case1 a b c rest ih =>
      rcases ih with ⟨values, hvalues, hbytes, hlines⟩
      -- Three bytes are one number of 24 bits, cut into four values of six.
      obtain ⟨n, hn⟩ : ∃ n, n = a.toNat * 65536 + b.toNat * 256 + c.toNat := ⟨_, rfl⟩
      have ha := a.toNat_lt
      have hb := b.toNat_lt
      have hc := c.toNat_lt
      have h1 := base64Char_spec (n / 262144) (by omega)
      have h2 := base64Char_spec (n / 4096 % 64) (by omega)
      have h3 := base64Char_spec (n / 64 % 64) (by omega)
      have h4 := base64Char_spec (n % 64) (by omega)
      refine ⟨n / 262144 :: n / 4096 % 64 :: n / 64 % 64 :: n % 64 :: values, ?_, ?_, ?_⟩
      · simp only [base64RawURL, ← hn, List.mapM_cons, h1.1, h2.1, h3.1, h4.1, hvalues,
          Option.bind_eq_bind, Option.bind_some, Option.pure_def]
      · simp only [base64Bytes, hbytes, Option.map_some, Option.some.injEq, List.cons.injEq,
          and_true]
        refine ⟨ofNat_byte _ _ ?_, ofNat_byte _ _ ?_, ofNat_byte _ _ ?_⟩ <;> omega
      · simp only [base64RawURL, ← hn, List.mem_cons, forall_eq_or_imp]
        exact ⟨h1.2, h2.2, h3.2, h4.2, hlines⟩
  | case2 a b =>
      -- Without padding, the last value of a short group carries zero bits.
      obtain ⟨n, hn⟩ : ∃ n, n = a.toNat * 1024 + b.toNat * 4 := ⟨_, rfl⟩
      have ha := a.toNat_lt
      have hb := b.toNat_lt
      have h1 := base64Char_spec (n / 4096) (by omega)
      have h2 := base64Char_spec (n / 64 % 64) (by omega)
      have h3 := base64Char_spec (n % 64) (by omega)
      refine ⟨[n / 4096, n / 64 % 64, n % 64], ?_, ?_, ?_⟩
      · simp only [base64RawURL, ← hn, List.mapM_cons, List.mapM_nil, h1.1, h2.1, h3.1,
          Option.bind_eq_bind, Option.bind_some, Option.pure_def]
      · simp only [base64Bytes, Option.some.injEq, List.cons.injEq, and_true]
        refine ⟨ofNat_byte _ _ ?_, ofNat_byte _ _ ?_⟩ <;> omega
      · simp only [base64RawURL, ← hn, List.mem_cons, forall_eq_or_imp, List.not_mem_nil,
          false_imp_iff, implies_true, and_true]
        exact ⟨h1.2, h2.2, h3.2⟩
  | case3 a =>
      have ha := a.toNat_lt
      have h1 := base64Char_spec (a.toNat / 4) (by omega)
      have h2 := base64Char_spec (a.toNat % 4 * 16) (by omega)
      refine ⟨[a.toNat / 4, a.toNat % 4 * 16], ?_, ?_, ?_⟩
      · simp only [base64RawURL, List.mapM_cons, List.mapM_nil, h1.1, h2.1,
          Option.bind_eq_bind, Option.bind_some, Option.pure_def]
      · simp only [base64Bytes, Option.some.injEq, List.cons.injEq, and_true]
        exact ofNat_byte _ _ (by omega)
      · simp only [base64RawURL, List.mem_cons, forall_eq_or_imp, List.not_mem_nil,
          false_imp_iff, implies_true, and_true]
        exact ⟨h1.2, h2.2⟩
  | case4 => exact ⟨[], rfl, rfl, fun c hc => absurd hc List.not_mem_nil⟩

/-- Bytes that are packed into base64 can be read. -/
theorem decodeBase64_encode (bytes : List UInt8) :
    decodeBase64 (base64RawURL bytes) = some bytes := by
  rcases base64RawURL_values bytes with ⟨values, hvalues, hbytes, hlines⟩
  have hall : (base64RawURL bytes).filter (fun c => c ≠ '\n' ∧ c ≠ '\r') = base64RawURL bytes :=
    List.filter_eq_self.mpr (fun c hc => decide_eq_true (hlines c hc))
  unfold decodeBase64
  rw [hall, hvalues, Option.bind_some, hbytes]

/-! ## The cursors of the audit log -/

/-- An ASCII text as bytes, and bytes as text. -/
def asciiBytes (text : List Char) : List UInt8 := text.map (fun c => UInt8.ofNat c.toNat)

def asciiText (bytes : List UInt8) : List Char := bytes.map (fun b => Char.ofNat b.toNat)

def encodeCursor (t : Time) : String :=
  String.ofList (base64RawURL (asciiBytes (formatRFC3339Nano t)))

def decodeCursor (s : String) : Option Time :=
  (decodeBase64 s.toList).bind (fun bytes => parseRFC3339 (asciiText bytes))

theorem asciiText_bytes (text : List Char) (h : ∀ c ∈ text, c.toNat < 256) :
    asciiText (asciiBytes text) = text := by
  unfold asciiText asciiBytes
  rw [List.map_map]
  refine (List.map_congr_left (fun c hc => ?_)).trans (List.map_id text)
  have hbyte : (UInt8.ofNat c.toNat).toNat = c.toNat := by
    rw [UInt8.toNat_ofNat']
    exact Nat.mod_eq_of_lt (h c hc)
  simp only [Function.comp_apply, hbyte, Char.ofNat_toNat, id_eq]

/-- A time is written in digits and a few marks. -/
theorem formatRFC3339Nano_ascii (t : Time) : ∀ c ∈ formatRFC3339Nano t, c.toNat < 256 := by
  have hdigit : ∀ n, (Calendar.digit n).toNat < 256 := by
    intro n
    have hlt : n % 10 < 10 := Nat.mod_lt _ (by decide)
    unfold Calendar.digit
    generalize n % 10 = d at *
    interval_cases d <;> decide
  have hfraction : ∀ k n, ∀ c ∈ Calendar.fractionDigits k n, c.toNat < 256 := by
    intro k
    induction k with
    | zero => simp [Calendar.fractionDigits]
    | succ k ih =>
        intro n c hc
        unfold Calendar.fractionDigits at hc
        by_cases hzero : n = 0
        · rw [if_pos hzero] at hc
          exact absurd hc List.not_mem_nil
        · rw [if_neg hzero, List.mem_cons] at hc
          rcases hc with rfl | hc
          · exact hdigit _
          · exact ih _ c hc
  have hyear : ∀ c ∈ yearText (dateOf t).1, c.toNat < 256 := by
    intro c hc
    have hfour : ∀ c ∈ Calendar.pad4 (dateOf t).1, c.toNat < 256 := by
      simp [Calendar.pad4, hdigit]
    unfold yearText at hc
    by_cases hearly : (dateOf t).1 < 10000
    · rw [if_pos hearly] at hc
      exact hfour c hc
    · rw [if_neg hearly] at hc
      -- A year after 9999 starts with the digits of its thousands.
      rcases List.mem_append.mp hc with hc | hc
      · have hisDigit := Nat.isDigit_of_mem_toDigits (by decide) (by decide) hc
        simp only [Char.isDigit, Bool.and_eq_true, decide_eq_true_eq] at hisDigit
        have hle : c.toNat ≤ 57 := hisDigit.2
        omega
      · exact hfour c hc
  have hpoint : ∀ c ∈ Calendar.fraction (t % second), c.toNat < 256 := by
    unfold Calendar.fraction
    split
    · simp
    · simpa using hfraction 9 (t % second)
  have hmarks : '-'.toNat < 256 ∧ 'T'.toNat < 256 ∧ ':'.toNat < 256 ∧ 'Z'.toNat < 256 := by decide
  unfold formatRFC3339Nano dateTime Calendar.dateTime Calendar.pad2
  simp only [List.cons_append, List.nil_append, List.append_assoc, List.forall_mem_append,
    List.forall_mem_cons, hdigit, hmarks, List.not_mem_nil, false_imp_iff, implies_true, and_true,
    true_and]
  exact ⟨hyear, hpoint⟩

/-- A cursor is read as the time it was made from, for a year of four digits. -/
theorem decode_encodeCursor (t : Time) :
    decodeCursor (encodeCursor t) = if (dateOf t).1 < 10000 then some t else none := by
  unfold decodeCursor encodeCursor
  rw [String.toList_ofList, decodeBase64_encode, Option.bind_some,
    asciiText_bytes _ (formatRFC3339Nano_ascii t), parse_formatRFC3339Nano]

end Cuttlegate
