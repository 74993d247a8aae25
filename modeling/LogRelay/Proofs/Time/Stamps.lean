import LogRelay.Proofs.Json.Lines
import LogRelay.Proofs.Time.Calendar

/-!
# Stamps sort as time

Every part of a stamp has a fixed number of digits and the parts follow each other from the year to the
millisecond, so the order of stamps as texts is the order of the moments they spell, and the moment is
computed back from the digits.
-/

namespace LogRelay

namespace Digits

/-! ## Digits of a fixed number of places -/

theorem value_char {digit : Nat} (hdigit : digit < 10) : value (char digit) = digit := by
  revert digit
  decide

theorem char_lt_char : ∀ other < 10, ∀ digit < other, char digit < char other := by decide

theorem toNat_append (front : List Char) (digit : Char) :
    toNat (front ++ [digit]) = 10 * toNat front + value digit := by
  simp [toNat]

theorem toNat_last {width number : Nat} (hfits : number < Nat.pow 10 width) :
    toNat (last width number) = number := by
  induction width generalizing number with
  | zero =>
      obtain rfl : number = 0 := Nat.lt_one_iff.mp hfits
      rfl
  | succ width induction =>
      have htens : number / 10 < Nat.pow 10 width := Nat.div_lt_of_lt_mul (by
        rw [Nat.mul_comm]
        exact hfits)
      rw [last, toNat_append, induction htens, value_char (Nat.mod_lt number (by decide))]
      exact Nat.div_add_mod number 10

theorem last_append_lt {width number other : Nat} (hlt : number < other) (hother : other < Nat.pow 10 width)
    (rest behind : List Char) : last width number ++ rest < last width other ++ behind := by
  induction width generalizing number other rest behind with
  | zero => exact absurd (Nat.lt_one_iff.mp hother) (Nat.ne_of_gt (Nat.zero_lt_of_lt hlt))
  | succ width induction =>
      have htens : other / 10 < Nat.pow 10 width := Nat.div_lt_of_lt_mul (by
        rw [Nat.mul_comm]
        exact hother)
      rw [last, last, List.append_assoc, List.append_assoc]
      obtain hfront | ⟨hfront, hunit⟩ :
          number / 10 < other / 10 ∨ number / 10 = other / 10 ∧ number % 10 < other % 10 := by omega
      · exact induction hfront htens _ _
      · rw [hfront]
        exact List.append_left_lt (List.Lex.rel (char_lt_char _ (Nat.mod_lt other (by decide)) _ hunit))

theorem notMem_last {width number : Nat} {char : Char} (hchar : ∀ digit < 10, char ≠ Digits.char digit) :
    char ∉ last width number := by
  induction width generalizing number with
  | zero => exact List.not_mem_nil
  | succ width induction =>
      rw [last, List.mem_append, List.mem_singleton, not_or]
      exact ⟨induction, hchar _ (Nat.mod_lt number (by decide))⟩

theorem padded_of_lt {width number : Nat} (hfits : number < Nat.pow 10 width) :
    padded width number = last width number := if_pos hfits

/-! ## Numbers at fixed places -/

/-- Where a number is written: so many digits, and what follows them. -/
structure Place where
  /-- Number of digits. -/
  width : Nat
  /-- What is written behind them. -/
  ending : List Char

/-- Numbers written one behind the other. -/
def place : List Place → List Nat → List Char
  | here :: places, number :: numbers => last here.width number ++ (here.ending ++ place places numbers)
  | _, _ => []

/-- The numbers that are written at some places. -/
def readPlaces : List Place → List Char → List Nat
  | [], _ => []
  | here :: places, text =>
      toNat (text.take here.width) :: readPlaces places (text.drop (here.width + here.ending.length))

theorem notMem_place {char : Char} (hchar : ∀ digit < 10, char ≠ Digits.char digit) {places : List Place}
    (hplaces : ∀ here ∈ places, char ∉ here.ending) (numbers : List Nat) : char ∉ place places numbers := by
  induction places generalizing numbers with
  | nil => exact List.not_mem_nil
  | cons here places induction =>
      cases numbers with
      | nil => exact List.not_mem_nil
      | cons number numbers =>
          obtain ⟨hhere, hbehind⟩ := List.forall_mem_cons.mp hplaces
          rw [place, List.mem_append, List.mem_append, not_or, not_or]
          exact ⟨notMem_last hchar, hhere, induction hbehind numbers⟩

/-- Whether numbers have no more digits than their places. -/
def Fit (places : List Place) (numbers : List Nat) : Prop :=
  List.Forall₂ (fun here number => number < Nat.pow 10 here.width) places numbers

theorem readPlaces_place {places : List Place} {numbers : List Nat} (hfit : Fit places numbers) :
    readPlaces places (place places numbers) = numbers := by
  induction hfit with
  | nil => rfl
  | @cons here number places numbers hnumber _ induction =>
      have hwidth := length_last here.width number
      have hbehind : (here.width + here.ending.length) = (last here.width number ++ here.ending).length := by
        rw [List.length_append, hwidth]
      rw [place, readPlaces, List.take_left' hwidth, toNat_last hnumber, hbehind, ← List.append_assoc,
        List.drop_left, induction]

theorem place_lt {places : List Place} {numbers others : List Nat} (hnumbers : Fit places numbers)
    (hothers : Fit places others) (hlt : numbers < others) : place places numbers < place places others := by
  induction hnumbers generalizing others with
  | nil =>
      cases hothers
      exact absurd hlt (List.lt_irrefl [])
  | cons _ _ induction =>
      cases hothers with
      | cons hother hbehind =>
          rw [place, place]
          obtain hless | ⟨rfl, hlater⟩ := List.cons_lt_cons_iff.mp hlt
          · exact last_append_lt hless hother _ _
          · exact List.append_left_lt (List.append_left_lt (induction hbehind hlater))

end Digits

namespace Civil

/-! ## True date and time -/

/-- The millisecond that a date and a time of day stand for: so many whole days after or before the first of
January 1970, and so much of the day. -/
def IsAt (civil : Civil) (millis : Int) : Prop :=
  ∃ number, Date.FallsOn civil.date number ∧
    civil.hour < 24 ∧ civil.minute < 60 ∧ civil.second < 60 ∧ civil.milli < 1000 ∧
    millis = (((number * 24 + civil.hour) * 60 + civil.minute) * 60 + civil.second) * 1000 + civil.milli

/-- The millisecond computed from a date and a time of day. -/
def toMillis (civil : Civil) : Int :=
  (((civil.date.dayNumber * 24 + civil.hour) * 60 + civil.minute) * 60 + civil.second) * 1000 + civil.milli

/-- Every millisecond is the one that its date and time of day stand for. -/
theorem isAt_ofMillis (millis : Int) : (ofMillis millis).IsAt millis := by
  refine ⟨millis / millisPerDay, Date.fallsOn_ofDayNumber _, ?_⟩
  simp only [ofMillis, millisPerDay]
  omega

theorem IsAt.eq_ofMillis {civil : Civil} {millis : Int} (hat : civil.IsAt millis) :
    civil = ofMillis millis := by
  obtain ⟨number, hdate, hhour, hminute, hsecond, hmilli, hmillis⟩ := hat
  obtain ⟨date, hour, minute, second, milli⟩ := civil
  obtain rfl : date = Date.ofDayNumber number := hdate.eq_ofDayNumber
  simp only at *
  have hday : millis / millisPerDay = number := by
    rw [millisPerDay]
    omega
  have hrest : (millis % millisPerDay).toNat = ((hour * 60 + minute) * 60 + second) * 1000 + milli := by
    rw [millisPerDay]
    omega
  simp only [ofMillis, hday, hrest, mk.injEq, true_and]
  omega

theorem IsAt.toMillis_eq {civil : Civil} {millis : Int} (hat : civil.IsAt millis) :
    civil.toMillis = millis := by
  obtain ⟨number, hdate, -, -, -, -, hmillis⟩ := hat
  rw [toMillis, hdate.dayNumber_eq, hmillis]

/-! ## The order of dates and times -/

/-- The parts of a date and time, the greatest first. -/
def parts (civil : Civil) : List Nat :=
  [civil.date.year.toNat, civil.date.month, civil.date.day, civil.hour, civil.minute, civil.second, civil.milli]

theorem time_lt {early late : Nat} (hlt : early < late) :
    early / 3600000 < late / 3600000 ∨ early / 3600000 = late / 3600000 ∧
      (early / 60000 % 60 < late / 60000 % 60 ∨ early / 60000 % 60 = late / 60000 % 60 ∧
        (early / 1000 % 60 < late / 1000 % 60 ∨ early / 1000 % 60 = late / 1000 % 60 ∧
          early % 1000 < late % 1000)) := by
  omega

/-- Of two milliseconds in years that are not negative the earlier one comes first by the parts of its date and
time. -/
theorem parts_ofMillis_lt {first second : Int} (hyear : 0 ≤ (ofMillis first).date.year) (hlt : first < second) :
    (ofMillis first).parts < (ofMillis second).parts := by
  have hdates : (ofMillis first).date.Before (ofMillis second).date ∨
      (ofMillis first).date = (ofMillis second).date ∧ first / millisPerDay = second / millisPerDay := by
    have hdays : first / millisPerDay < second / millisPerDay ∨
        first / millisPerDay = second / millisPerDay := by
      rw [millisPerDay]
      omega
    exact hdays.imp Date.before_ofDayNumber fun hday => ⟨congrArg Date.ofDayNumber hday, hday⟩
  simp only [parts, List.cons_lt_cons_iff]
  obtain hdate | ⟨hdate, hday⟩ := hdates
  · rw [Date.Before] at hdate
    omega
  · have hrest : (first % millisPerDay).toNat < (second % millisPerDay).toNat := by
      rw [millisPerDay] at *
      omega
    have htime := time_lt hrest
    rw [hdate]
    simp only [ofMillis, true_and] at *
    omega

/-! ## Stamps as texts -/

/-- The places of a stamp. -/
def places (separator : Char) (ending : List Char) : List Digits.Place :=
  [⟨4, ['-']⟩, ⟨2, ['-']⟩, ⟨2, [separator]⟩, ⟨2, [':']⟩, ⟨2, [':']⟩, ⟨2, ['.']⟩, ⟨3, ending⟩]

/-- The date and time with the given parts. -/
def ofParts? : List Nat → Option Civil
  | [year, month, day, hour, minute, second, milli] =>
      some ⟨⟨year, month, day⟩, hour, minute, second, milli⟩
  | _ => none

theorem ofParts?_parts {civil : Civil} (hyear : 0 ≤ civil.date.year) : ofParts? civil.parts = some civil := by
  have hsame : (civil.date.year.toNat : Int) = civil.date.year := Int.toNat_of_nonneg hyear
  rw [parts, ofParts?, hsame]

theorem fit_parts {civil : Civil} {millis : Int} (hat : civil.IsAt millis) (hyear : civil.date.year ≤ 9999)
    (separator : Char) (ending : List Char) : Digits.Fit (places separator ending) civil.parts := by
  obtain ⟨number, hdate, hhour, hminute, hsecond, hmilli, -⟩ := hat
  have hvalid : civil.date.IsValid := hdate.eq_ofDayNumber ▸ Date.isValid_ofDayNumber number
  have hmonth := hvalid.month_le
  have hday := Nat.le_trans hvalid.day_le (Date.daysIn_le _ _)
  have hfour : Nat.pow 10 4 = 10000 := rfl
  have hthree : Nat.pow 10 3 = 1000 := rfl
  have htwo : Nat.pow 10 2 = 100 := rfl
  simp only [Digits.Fit, places, parts, List.forall₂_cons, List.Forall₂.nil, hfour, hthree, htwo, and_true]
  omega

theorem spelled_eq_place {civil : Civil} {separator : Char} {ending : List Char} (hyear : 0 ≤ civil.date.year)
    (hfit : Digits.Fit (places separator ending) civil.parts) :
    civil.spelled separator ++ ending = Digits.place (places separator ending) civil.parts := by
  simp only [Digits.Fit, places, parts, List.forall₂_cons, List.Forall₂.nil, and_true] at hfit
  obtain ⟨hfour, hmonth, hday, hhour, hminute, hsecond, hmilli⟩ := hfit
  have hmost : civil.date.year ≤ 9999 := by
    have hbound : civil.date.year.toNat < 10000 := hfour
    omega
  rw [spelled, yearDigits, if_pos ⟨hyear, hmost⟩, Digits.padded_of_lt hfour, Digits.padded_of_lt hmonth,
    Digits.padded_of_lt hday, Digits.padded_of_lt hhour, Digits.padded_of_lt hminute,
    Digits.padded_of_lt hsecond, Digits.padded_of_lt hmilli]
  simp only [places, parts, Digits.place, List.append_assoc, List.cons_append, List.nil_append,
    List.append_nil]

end Civil

/-! ## Stamps of lines -/

namespace LogFormat

/-- The stamp of a moment in a line. -/
def stamp (moment : Instant) : LogFormat → List Char
  | text => moment.textStamp
  | json => moment.jsonStamp

/-- The places of a stamp in a line. -/
def places : LogFormat → List Digits.Place
  | text => Civil.places ' ' []
  | json => Civil.places 'T' ['+', '0', '0', '0', '0']

/-- The date and time that a stamp spells. -/
def read? (format : LogFormat) (stamp : List Char) : Option Civil :=
  Civil.ofParts? (Digits.readPlaces format.places stamp)

variable {format : LogFormat} {moment : Instant} {civil : Civil}

theorem stamp_eq (hat : civil.IsAt moment.millis) (hleast : 0 ≤ civil.date.year)
    (hmost : civil.date.year ≤ 9999) :
    format.stamp moment = Digits.place format.places civil.parts := by
  obtain rfl := hat.eq_ofMillis
  cases format with
  | text =>
      rw [stamp, Instant.textStamp, ← List.append_nil (Civil.spelled _ _)]
      exact Civil.spelled_eq_place hleast (Civil.fit_parts hat hmost _ _)
  | json => exact Civil.spelled_eq_place hleast (Civil.fit_parts hat hmost _ _)

theorem fit_parts (hat : civil.IsAt moment.millis) (hmost : civil.date.year ≤ 9999) :
    Digits.Fit format.places civil.parts := by
  cases format with
  | text => exact Civil.fit_parts hat hmost _ _
  | json => exact Civil.fit_parts hat hmost _ _

theorem stamp_congr {later : Instant} (hmillis : moment.millis = later.millis) :
    format.stamp moment = format.stamp later := by
  have hcivil : moment.civil = later.civil := congrArg Civil.ofMillis hmillis
  cases format with
  | text => rw [stamp, stamp, Instant.textStamp, Instant.textStamp, hcivil]
  | json => rw [stamp, stamp, Instant.jsonStamp, Instant.jsonStamp, hcivil]

theorem read?_stamp (hat : civil.IsAt moment.millis) (hleast : 0 ≤ civil.date.year)
    (hmost : civil.date.year ≤ 9999) : format.read? (format.stamp moment) = some civil := by
  rw [read?, stamp_eq hat hleast hmost, Digits.readPlaces_place (fit_parts hat hmost),
    Civil.ofParts?_parts hleast]

theorem stamp_lt {later : Instant} {other : Civil} (hat : civil.IsAt moment.millis)
    (hother : other.IsAt later.millis) (hleast : 0 ≤ civil.date.year) (hmost : civil.date.year ≤ 9999)
    (hleast' : 0 ≤ other.date.year) (hmost' : other.date.year ≤ 9999)
    (hlt : moment.millis < later.millis) : format.stamp moment < format.stamp later := by
  have hparts : civil.parts < other.parts := by
    rw [hat.eq_ofMillis] at *
    rw [hother.eq_ofMillis]
    exact Civil.parts_ofMillis_lt hleast hlt
  rw [stamp_eq hat hleast hmost, stamp_eq hother hleast' hmost']
  exact Digits.place_lt (fit_parts hat hmost) (fit_parts hother hmost') hparts

end LogFormat

namespace Record

/-- Where the stamp of a line stands: between the first two brackets of a text line, and in the member `time`
of the object of a JSON line. -/
inductive Bears : LogFormat → List Char → List Char → Prop where
  | text {stamp rest : List Char} (hstamp : ']' ∉ stamp) : Bears .text ('[' :: stamp ++ ']' :: rest) stamp
  | json {members : Json .members} {stamp : List Char}
      (htime : members.find? "time" = some (.string (String.ofList stamp))) :
      Bears .json ((Json.object members).print ++ ['\n']) stamp

variable {format : LogFormat} {record : Record} {civil : Civil}

/-- The line of a record bears the stamp of its time. -/
theorem bears_stamp (hat : civil.IsAt record.time.millis) (hleast : 0 ≤ civil.date.year)
    (hmost : civil.date.year ≤ 9999) (name : String) (origin : Origin) :
    ∃ line, record.line? format name origin = some line ∧ Bears format line (format.stamp record.time) := by
  have hrange : record.time.civil.InRange := by
    rw [Instant.civil, ← hat.eq_ofMillis]
    exact ⟨Int.le_trans (by decide) hleast, Int.le_trans hmost (by decide)⟩
  refine ⟨record.lineChars format name origin, if_pos hrange, ?_⟩
  cases format with
  | text =>
      have hstamp : ']' ∉ LogFormat.stamp record.time .text := by
        rw [LogFormat.stamp_eq hat hleast hmost]
        exact Digits.notMem_place (by decide) (by decide) _
      have hline : record.lineChars .text name origin = '[' :: LogFormat.stamp record.time .text ++
          ']' :: ([' ', '['] ++ record.severity.name.toList ++ [']', ' '] ++ record.text.toList ++ ['\n']) := by
        simp [lineChars, toText, LogFormat.stamp]
      rw [hline]
      exact .text hstamp
  | json => exact .json (by simp [Json.find?, LogFormat.stamp])

/-- For any two records of the years zero to 9999 and either format: the stamps of their lines compare as texts
as their times do, rounded down to milliseconds, and are equal only if these are. Each stamp is the date and
time of its millisecond, which is computed back from it. -/
theorem stamps_sort_as_time (format : LogFormat) {first second : Record} {early late : Civil}
    (hfirst : early.IsAt first.time.millis) (hsecond : late.IsAt second.time.millis)
    (hearly : 0 ≤ early.date.year ∧ early.date.year ≤ 9999)
    (hlate : 0 ≤ late.date.year ∧ late.date.year ≤ 9999) :
    ∃ stamp later,
      (∀ name origin, ∃ line, first.line? format name origin = some line ∧ Bears format line stamp) ∧
      (∀ name origin, ∃ line, second.line? format name origin = some line ∧ Bears format line later) ∧
      (stamp < later ↔ first.time.millis < second.time.millis) ∧
      (stamp = later ↔ first.time.millis = second.time.millis) ∧
      format.read? stamp = some early ∧ early.toMillis = first.time.millis ∧
      format.read? later = some late ∧ late.toMillis = second.time.millis := by
  have hread : format.read? (format.stamp first.time) = some early :=
    LogFormat.read?_stamp hfirst hearly.1 hearly.2
  have hreadLater : format.read? (format.stamp second.time) = some late :=
    LogFormat.read?_stamp hsecond hlate.1 hlate.2
  have hsame : format.stamp first.time = format.stamp second.time ↔
      first.time.millis = second.time.millis := by
    refine ⟨fun hstamps => ?_, LogFormat.stamp_congr⟩
    rw [hstamps, hreadLater] at hread
    rw [← hfirst.toMillis_eq, ← Option.some.inj hread, hsecond.toMillis_eq]
  refine ⟨format.stamp first.time, format.stamp second.time, bears_stamp hfirst hearly.1 hearly.2,
    bears_stamp hsecond hlate.1 hlate.2, ?_, hsame, hread, hfirst.toMillis_eq, hreadLater,
    hsecond.toMillis_eq⟩
  constructor
  · intro hstamps
    obtain hlt | heq | hgt := Int.lt_trichotomy first.time.millis second.time.millis
    · exact hlt
    · exact absurd (hsame.mpr heq ▸ hstamps) (List.lt_irrefl _)
    · have hback : format.stamp second.time < format.stamp first.time :=
        LogFormat.stamp_lt hsecond hfirst hlate.1 hlate.2 hearly.1 hearly.2 hgt
      exact absurd hstamps (List.lt_asymm hback)
  · exact LogFormat.stamp_lt hfirst hsecond hearly.1 hearly.2 hlate.1 hlate.2

/-- A record of the last nanosecond before 1970. -/
def endOf1969 : Record := ⟨.info, "a", ⟨-1⟩⟩

/-- A record of the start of 1970. -/
def startOf1970 : Record := ⟨.info, "b", ⟨0⟩⟩

/-- The last nanosecond before 1970 is in the last millisecond of 1969, which is stamped before the first one of
1970. -/
theorem stamps_sort_around_1970 :
    let early : Civil := ⟨⟨1969, 12, 31⟩, 23, 59, 59, 999⟩
    let late : Civil := ⟨⟨1970, 1, 1⟩, 0, 0, 0, 0⟩
    early.IsAt endOf1969.time.millis ∧ late.IsAt startOf1970.time.millis ∧
      ∃ stamp later,
        (∀ name origin, ∃ line, endOf1969.line? .json name origin = some line ∧ Bears .json line stamp) ∧
        (∀ name origin, ∃ line, startOf1970.line? .json name origin = some line ∧ Bears .json line later) ∧
        stamp < later ∧ stamp ≠ later ∧ LogFormat.json.read? stamp = some early ∧ early.toMillis = -1 ∧
        LogFormat.json.read? later = some late ∧ late.toMillis = 0 := by
  intro early late
  have hmillis : endOf1969.time.millis = -1 := by decide
  have hlater : startOf1970.time.millis = 0 := by decide
  have hnext : early.date.next = ⟨1970, 1, 1⟩ := by decide
  have hvalid : early.date.IsValid := ⟨by decide, by decide, by decide, by decide⟩
  have hearly : early.IsAt endOf1969.time.millis := by
    rw [hmillis]
    exact ⟨-1, .before hvalid (hnext ▸ .epoch), by decide⟩
  have hlate : late.IsAt startOf1970.time.millis := by
    rw [hlater]
    exact ⟨0, .epoch, by decide⟩
  obtain ⟨stamp, later, hfirst, hsecond, hlt, heq, hread, hback, hreadLater, hbackLater⟩ :=
    stamps_sort_as_time .json hearly hlate ⟨by decide, by decide⟩ ⟨by decide, by decide⟩
  rw [hmillis, hlater] at *
  have hdiffer : stamp ≠ later := fun hsame => absurd (heq.mp hsame) (by decide)
  exact ⟨hearly, hlate, stamp, later, hfirst, hsecond, hlt.mpr (by decide), hdiffer, hread, hback, hreadLater,
    hbackLater⟩

end Record

end LogRelay
