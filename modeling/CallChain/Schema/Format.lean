import CallChain.Pattern.Parser

/-!
# Formats of strings

The `format` keyword names a kind of text. Dates and times follow RFC 3339, addresses are written
in full, and a format that is not known here admits every string.

* `Format.isDate`, `Format.isDateTime`, `Format.isEmail`, `Format.isIpv4`, …
* `Format.admits`: the check of a format by its name.
-/

set_option autoImplicit false

namespace CallChain.Format

/-- The number written by exactly so many digits, and what follows. -/
def digits (count : Nat) (cs : List Char) : Option (Nat × List Char) :=
  let ds := cs.take count
  if ds.length = count && ds.all Char.isDigit then
    some (ds.foldl (fun n d => n * 10 + (d.toNat - '0'.toNat)) 0, cs.drop count)
  else none

/-- What follows a given character. -/
def after (c : Char) : List Char → Option (List Char)
  | d :: rest => if d = c then some rest else none
  | [] => none

/-! ### Dates and times -/

/-- Whether a year has a leap day. -/
def isLeap (year : Nat) : Bool := year % 4 == 0 && (year % 100 != 0 || year % 400 == 0)

/-- How many days a month has. -/
def daysIn (year month : Nat) : Nat :=
  if month = 2 then (if isLeap year then 29 else 28)
  else if month = 4 || month = 6 || month = 9 || month = 11 then 30
  else 31

/-- Whether a calendar has this day. -/
def isDay (year month day : Nat) : Bool :=
  1 ≤ month && month ≤ 12 && 1 ≤ day && day ≤ daysIn year month

/-- Reads `YYYY-MM-DD`. -/
def date (cs : List Char) : Option ((Nat × Nat × Nat) × List Char) := do
  let (year, cs) ← digits 4 cs
  let cs ← after '-' cs
  let (month, cs) ← digits 2 cs
  let cs ← after '-' cs
  let (day, cs) ← digits 2 cs
  if isDay year month day then some ((year, month, day), cs) else none

/-- Whether a text is a day of the calendar; a sign may precede its year. -/
def isDate (text : String) : Bool :=
  let unsigned := match text.toList with
    | '+' :: rest => rest
    | '-' :: rest => rest
    | cs => cs
  match date unsigned with
  | some (_, []) => true
  | _ => false

/-- Reads `hh:mm:ss` and a fraction, if there is one. -/
def clock (cs : List Char) : Option ((Nat × Nat × Nat) × List Char) := do
  let (hour, cs) ← digits 2 cs
  let cs ← after ':' cs
  let (minute, cs) ← digits 2 cs
  let cs ← after ':' cs
  let (second, cs) ← digits 2 cs
  let rest : Option (List Char) :=
    match cs with
    | '.' :: more => if (more.head?).any Char.isDigit then some (more.dropWhile Char.isDigit) else none
    | _ => some cs
  let rest ← rest
  if hour ≤ 23 && minute ≤ 59 && second ≤ 60 then some ((hour, minute, second), rest) else none

/-- Reads an offset, in minutes east of the zero meridian. -/
def offset (cs : List Char) : Option (Int × List Char) :=
  match cs with
  | 'Z' :: rest => some (0, rest)
  | 'z' :: rest => some (0, rest)
  | sign :: rest =>
    if sign = '+' || sign = '-' then do
      let (hour, cs) ← digits 2 rest
      let cs ← after ':' cs
      let (minute, cs) ← digits 2 cs
      if hour ≤ 23 && minute ≤ 59 then
        let east : Int := hour * 60 + minute
        some (if sign = '-' then -east else east, cs)
      else none
    else none
  | [] => none

/-- Whether a sixtieth second may stand here: only in the last minute, at the zero meridian, of a
month. -/
def isLeapSecond (year month day hour minute : Nat) (east : Int) : Bool :=
  let minutes : Int := (hour * 60 + minute : Nat) - east
  if minutes = 1439 then day == daysIn year month
  else if minutes = 1439 - 1440 then day == 1
  else if minutes = 1439 + 1440 then day + 1 == daysIn year month
  else false

/-- Whether a text is a day, a time of day and an offset. -/
def isDateTime (text : String) : Bool :=
  let parsed : Option Bool := do
    let ((year, month, day), cs) ← date text.toList
    let cs ← (after 'T' cs).orElse (fun _ => after 't' cs)
    let ((hour, minute, second), cs) ← clock cs
    let (east, cs) ← offset cs
    if cs.isEmpty then
      some (second != 60 || isLeapSecond year month day hour minute east)
    else none
  parsed.getD false

/-- Whether a text is a time of day and an offset. -/
def isTime (text : String) : Bool :=
  let parsed : Option Bool := do
    let ((_, _, second), cs) ← clock text.toList
    let (_, cs) ← offset cs
    some (cs.isEmpty && second ≤ 59)
  parsed.getD false

/-! ### Addresses -/

/-- Whether two dots follow each other. -/
def hasDoubleDot : List Char → Bool
  | '.' :: '.' :: _ => true
  | _ :: rest => hasDoubleDot rest
  | [] => false

/-- Whether a text has a name and an `@` after it; the name neither starts nor ends with a dot nor
has two in a row. -/
def isEmail (text : String) : Bool :=
  let cs := text.toList
  let name := cs.takeWhile (· != '@')
  cs.contains '@' && !name.isEmpty && name.head? != some '.' && name.getLast? != some '.'
    && !hasDoubleDot name

/-- Whether digits are a number below 256 without needless zeros. -/
def isOctet (text : String) : Bool :=
  let ds := text.toList
  !ds.isEmpty && ds.length ≤ 3 && ds.all Char.isDigit
    && (ds.length == 1 || ds.head? != some '0')
    && ds.foldl (fun n d => n * 10 + (d.toNat - '0'.toNat)) 0 < 256

/-- Whether a text is four octets. -/
def isIpv4 (text : String) : Bool :=
  let parts := text.splitOn "."
  parts.length == 4 && parts.all isOctet

/-- Whether a text is one to four hexadecimal digits. -/
def isHextet (text : String) : Bool :=
  let ds := text.toList
  !ds.isEmpty && ds.length ≤ 4
    && ds.all (fun c => c.isDigit || ('a' ≤ c && c ≤ 'f') || ('A' ≤ c && c ≤ 'F'))

/-- How many hextets a list of groups stands for, unless one is none; an address of four octets may
be the last. -/
def hextets? : List String → Option Nat
  | [] => some 0
  | [g] => if isHextet g then some 1 else if isIpv4 g then some 2 else none
  | g :: rest => if isHextet g then (hextets? rest).map (· + 1) else none

/-- Whether a text is eight hextets, of which one run may be left out. -/
def isIpv6 (text : String) : Bool :=
  let groups (s : String) : List String := if s.isEmpty then [] else s.splitOn ":"
  match text.splitOn "::" with
  | [whole] => hextets? (groups whole) == some 8
  | [left, right] =>
    (groups left).all isHextet &&
      match hextets? (groups right) with
      | some n => (groups left).length + n ≤ 7
      | none => false
  | _ => false

/-- Whether a text is a host name: letters, digits, hyphens and dots, parts of at most 63. -/
def isHostname (text : String) : Bool :=
  let cs := text.toList
  !cs.isEmpty && cs.head? != some '-' && cs.getLast? != some '-' && cs.length ≤ 255
    && cs.all (fun c => Text.isLetterOrDigit c || c == '-' || c == '.')
    && (text.splitOn ".").all (fun part => part.length ≤ 63)

/-- Whether a text is a pointer into a JSON value. -/
def isPointer (text : String) : Bool :=
  match Pattern.parse? "^(/(([^/~])|(~[01]))*)*$" with
  | some p => p.occursIn text
  | none => true

/-- Whether a text starts with the name of a scheme. -/
def isUri (text : String) : Bool :=
  let scheme := text.toList.takeWhile (· != ':')
  text.toList.contains ':' && (scheme.head?).any Char.isAlpha
    && scheme.all (fun c => c.isAlphanum || c == '+' || c == '-' || c == '.')

/-- **Whether a string is of the named format.** -/
def admits (format text : String) : Bool :=
  match format with
  | "date" => isDate text
  | "date-time" => isDateTime text
  | "time" => isTime text
  | "email" => isEmail text
  | "idn-email" => isEmail text
  | "hostname" => isHostname text
  | "ipv4" => isIpv4 text
  | "ipv6" => isIpv6 text
  | "json-pointer" => isPointer text
  | "regex" => (Pattern.parse? text).isSome
  | "uri" => isUri text
  | _ => true

end CallChain.Format
