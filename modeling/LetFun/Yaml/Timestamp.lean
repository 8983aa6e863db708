import LetFun.Number.Decimal
import LetFun.Yaml.Fault
/-!
# Points in time

Dates and times as YAML writes them: a date alone, or a date and a time of day, perhaps with a
fraction of a second and with an offset from universal time.
-/

namespace LetFun.Yaml

structure Date where
  year : Nat
  month : Nat
  day : Nat
deriving DecidableEq, Repr

structure TimeOfDay where
  hour : Nat
  minute : Nat
  second : Nat
  microsecond : Nat
  offset : Option Int
deriving DecidableEq, Repr

structure Timestamp where
  date : Date
  time : Option TimeOfDay
deriving DecidableEq, Repr

namespace Timestamp

/-! ## Reading -/

def readDigits (least most : Nat) (cs : List Char) : Option (Nat × List Char) :=
  let digits := (cs.take most).takeWhile Char.isDigit
  if digits.length < least then none else some (ofDigits digits, cs.drop digits.length)

def readMark (mark : Char) : List Char → Option (List Char)
  | [] => none
  | c :: rest => if c = mark then some rest else none

def readGap : List Char → Option (List Char)
  | [] => none
  | c :: rest =>
    if c = 'T' ∨ c = 't' then some rest
    else if c = ' ' ∨ c = '\t' then some (rest.dropWhile fun d => d = ' ' || d = '\t')
    else none

def readFraction : List Char → Nat × List Char
  | '.' :: rest =>
    let digits := rest.takeWhile Char.isDigit
    let micros := (digits.take 6) ++ List.replicate (6 - digits.length) '0'
    (ofDigits micros, rest.drop digits.length)
  | rest => (0, rest)

def readOffset (cs : List Char) : Option (Option (Bool × Nat)) :=
  match cs.dropWhile fun c => c = ' ' || c = '\t' with
  | [] => if cs.isEmpty then some none else none
  | ['Z'] => some (some (false, 0))
  | sign :: rest =>
    if sign = '+' ∨ sign = '-' then do
      let (hours, afterHours) ← readDigits 1 2 rest
      match afterHours with
      | [] => return some (sign = '-', hours * 60)
      | ':' :: r =>
        let (minutes, afterMinutes) ← readDigits 2 2 r
        if afterMinutes.isEmpty then return some (sign = '-', hours * 60 + minutes) else none
      | _ => none
    else none

/-- The numbers of a point in time as they are written, not yet checked. -/
structure Written where
  date : Date
  time : Option (Nat × Nat × Nat × Nat × Option (Bool × Nat))

def read? (cs : List Char) : Option Written := do
  let (year, a) ← readDigits 4 4 cs
  let (month, b) ← readDigits 1 2 (← readMark '-' a)
  let (day, c) ← readDigits 1 2 (← readMark '-' b)
  if c.isEmpty then return ⟨⟨year, month, day⟩, none⟩
  else
    let (hour, d) ← readDigits 1 2 (← readGap c)
    let (minute, e) ← readDigits 2 2 (← readMark ':' d)
    let (second, f) ← readDigits 2 2 (← readMark ':' e)
    let (micros, g) := readFraction f
    return ⟨⟨year, month, day⟩, some (hour, minute, second, micros, ← readOffset g)⟩

/-- Whether a text without a tag is a point in time: with a time of day, or with two digits each for
month and day. -/
def isImplicit (cs : List Char) : Bool :=
  (read? cs).any fun w => w.time.isSome || cs.length = 10

/-! ## Checking -/

def isLeap (year : Nat) : Bool :=
  year % 4 = 0 && (year % 100 ≠ 0 || year % 400 = 0)

def daysIn (year month : Nat) : Nat :=
  if month = 2 then (if isLeap year then 29 else 28)
  else if month = 4 ∨ month = 6 ∨ month = 9 ∨ month = 11 then 30
  else 31

def checkDate (d : Date) : Except Fault Date :=
  if d.year = 0 then .error (.yearOutOfRange d.year)
  else if d.month = 0 ∨ 12 < d.month then .error .monthOutOfRange
  else if d.day = 0 ∨ daysIn d.year d.month < d.day then .error .dayOutOfRange
  else .ok d

def checkOffset : Option (Bool × Nat) → Except Fault (Option Int)
  | none => .ok none
  | some (negative, minutes) =>
    if 24 * 60 ≤ minutes then .error (.offsetTooLarge negative minutes)
    else .ok (some (withSign negative minutes))

def ofText (cs : List Char) : Except Fault Timestamp :=
  match read? cs with
  | none => .error .notTimestamp
  | some ⟨date, none⟩ => (checkDate date).map (⟨·, none⟩)
  | some ⟨date, some (hour, minute, second, micros, offset)⟩ => do
    let offset ← checkOffset offset
    let date ← checkDate date
    if 23 < hour then .error (.timeOutOfRange .hour)
    else if 59 < minute then .error (.timeOutOfRange .minute)
    else if 59 < second then .error (.timeOutOfRange .second)
    else return ⟨date, some ⟨hour, minute, second, micros, offset⟩⟩

/-! ## Comparing -/

def dayNumber (d : Date) : Nat :=
  let y := d.year - 1
  let months := (List.range (d.month - 1)).map fun m => daysIn d.year (m + 1)
  y * 365 + y / 4 - y / 100 + y / 400 + months.foldl (· + ·) 0 + d.day

/-- The microseconds of a point in time, counted from its date's calendar, its offset taken away. -/
def instant (d : Date) (t : TimeOfDay) : Int :=
  let seconds : Int := ((dayNumber d * 24 + t.hour) * 60 + t.minute) * 60 + t.second
  (seconds - t.offset.getD 0 * 60) * 1000000 + t.microsecond

def same (s t : Timestamp) : Bool :=
  match s.time, t.time with
  | none, none => s.date = t.date
  | some u, some v =>
    u.offset.isSome = v.offset.isSome && instant s.date u = instant t.date v
  | _, _ => false

/-! ## Writing -/

def padded (width n : Nat) : String :=
  let digits := Nat.toDigits 10 n
  String.ofList (List.replicate (width - digits.length) '0' ++ digits)

def offsetText (minutes : Int) : String :=
  (if minutes < 0 then "-" else "+") ++ padded 2 (minutes.natAbs / 60) ++ ":" ++
    padded 2 (minutes.natAbs % 60)

/-- A point in time as text, with the fraction and the offset only where there is one. -/
def text (t : Timestamp) : String :=
  let date := padded 4 t.date.year ++ "-" ++ padded 2 t.date.month ++ "-" ++ padded 2 t.date.day
  match t.time with
  | none => date
  | some u =>
    let fraction := if u.microsecond = 0 then "" else "." ++ padded 6 u.microsecond
    date ++ " " ++ padded 2 u.hour ++ ":" ++ padded 2 u.minute ++ ":" ++ padded 2 u.second ++
      fraction ++ (u.offset.map offsetText).getD ""

end Timestamp

end LetFun.Yaml
