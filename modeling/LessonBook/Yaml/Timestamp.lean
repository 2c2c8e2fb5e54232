import LessonBook.Text.Recognizer

/-!
Points in time, counted in milliseconds from the start of the year 1970, in the
calendar whose leap years have always followed the rule of today.
-/

namespace LessonBook.Yaml.Timestamp

open Text

def dayLength : Int := 86400000

/-- The days from the start of 1970 to the start of a month. Months count from
zero, and those beyond a year fall into the years next to it. -/
def daysTo (year month : Int) : Int :=
  -- A year that begins in March has its leap day at its end.
  let sinceMarch := month - 2
  let shifted := year + sinceMarch / 12
  365 * shifted + shifted / 4 - shifted / 100 + shifted / 400 +
    (153 * (sinceMarch % 12) + 2) / 5 - 719468

structure Moment where
  year : Int
  month : Nat
  day : Nat
  hour : Nat
  minute : Nat
  second : Nat
  millisecond : Nat
  weekday : Nat

def momentOf (time : Int) : Moment :=
  let days := time / dayLength
  let rest := (time % dayLength).toNat
  let era := (days + 719468) / 146097
  let dayOfEra := (days + 719468) % 146097
  let yearOfEra :=
    (dayOfEra - dayOfEra / 1460 + dayOfEra / 36524 - dayOfEra / 146096) / 365
  let dayOfYear := dayOfEra - (365 * yearOfEra + yearOfEra / 4 - yearOfEra / 100)
  let sinceMarch := ((5 * dayOfYear + 2) / 153).toNat
  let month := if sinceMarch < 10 then sinceMarch + 3 else sinceMarch - 9
  { year := yearOfEra + 400 * era + (if month ≤ 2 then 1 else 0)
    month
    day := (dayOfYear - (153 * sinceMarch + 2) / 5 + 1).toNat
    hour := rest / 3600000
    minute := rest / 60000 % 60
    second := rest / 1000 % 60
    millisecond := rest % 1000
    weekday := ((days + 4) % 7).toNat }

/-! ### Reading -/

def digits? (least most : Nat) (text : Text) : Option (Nat × Text) :=
  let digits := text.takeWhile Char.isDigit
  if least ≤ digits.length && digits.length ≤ most then
    some (digitsValue digits, text.dropWhile Char.isDigit)
  else none

def fraction? : Text → Option (Nat × Text)
  | '.' :: rest =>
      let digits := rest.takeWhile Char.isDigit
      if digits.isEmpty then none
      else some (digitsValue ((digits ++ ['0', '0']).take 3), rest.dropWhile Char.isDigit)
  | text => some (0, text)

/-- The minutes by which a zone is ahead. A number alone below thirty means hours. -/
def zone? : Text → Option Int
  | ['Z'] => some 0
  | sign :: rest => do
      let (first, behind) ← digits? 1 2 rest
      let wide := (rest.takeWhile Char.isDigit).length = 2
      if (sign ≠ '+' && sign ≠ '-') || (wide && 29 < first) then none
      else
        let minutes ← match behind with
          | [] => some first
          | _ => do
              let (second, nothing) ← (Recognizer.char ':' behind).bind (digits? 2 2)
              if nothing.isEmpty then some (60 * first + second) else none
        let ahead := if minutes < 30 then 60 * minutes else minutes
        some (if sign = '-' then -(ahead : Int) else ahead)
  | [] => none

def clock? (text : Text) : Option Int := do
  let start ← match text with
    | 't' :: rest | 'T' :: rest => some rest
    | c :: _ => if isSpaceOrTab c then some (text.dropWhile isSpaceOrTab) else none
    | [] => none
  let (hour, rest) ← digits? 1 2 start
  let (minute, rest) ← (Recognizer.char ':' rest).bind (digits? 1 2)
  let (second, rest) ← (Recognizer.char ':' rest).bind (digits? 1 2)
  let (millisecond, rest) ← fraction? rest
  let ahead ← if rest.isEmpty then some 0 else zone? (rest.dropWhile isSpaceOrTab)
  some (1000 * (60 * (60 * (hour : Int) + minute - ahead) + second) + millisecond)

/-- The time of a date, with a time of day behind it or without one. A year of
four digits below one hundred lies in the twentieth century. -/
def read? (text : Text) : Option Int := do
  let (year, rest) ← digits? 4 4 text
  let (month, rest) ← (Recognizer.char '-' rest).bind (digits? 1 2)
  let (day, rest) ← (Recognizer.char '-' rest).bind (digits? 1 2)
  let time ← if rest.isEmpty then some 0 else clock? rest
  let year := if year < 100 then year + 1900 else year
  some ((daysTo year (month - 1) + day - 1) * dayLength + time)

/-! ### Writing -/

def padded (width value : Nat) : Text :=
  let digits := Text.ofNat value
  List.replicate (width - digits.length) '0' ++ digits

/-- Years beyond four digits are written with six and a sign. -/
def isoText (time : Int) : Text :=
  let moment := momentOf time
  let year := if 9999 < moment.year then '+' :: padded 6 moment.year.toNat
    else padded 4 moment.year.toNat
  year ++ '-' :: padded 2 moment.month ++ '-' :: padded 2 moment.day ++
    'T' :: padded 2 moment.hour ++ ':' :: padded 2 moment.minute ++
    ':' :: padded 2 moment.second ++ '.' :: padded 3 moment.millisecond ++ ['Z']

def shortText (time : Int) : Text :=
  let whole := isoText time
  if time % dayLength = 0 then whole.take (whole.length - 14)
  else if time % 1000 = 0 then whole.take (whole.length - 5)
  else whole

def weekdays : List String :=
  ["Sun", "Mon", "Tue", "Wed", "Thu", "Fri", "Sat"]

def months : List String :=
  ["Jan", "Feb", "Mar", "Apr", "May", "Jun", "Jul", "Aug", "Sep", "Oct", "Nov", "Dec"]

def longText (time : Int) : Text :=
  let moment := momentOf time
  (weekdays.getD moment.weekday "").toList ++ ' ' ::
    (months.getD (moment.month - 1) "").toList ++ ' ' ::
    padded 2 moment.day ++ ' ' :: padded 4 moment.year.toNat ++ ' ' ::
    padded 2 moment.hour ++ ':' :: padded 2 moment.minute ++ ':' :: padded 2 moment.second ++
    " GMT+0000 (Coordinated Universal Time)".toList

end LessonBook.Yaml.Timestamp
