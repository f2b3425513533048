/-
  Primacy.Toml.Number

  Numbers and dates of TOML.  Integers fit 64 bits; a date or time has no value of its own here and
  becomes its normal text.
-/
import Primacy.Settings.Value
import Primacy.Toml.Text

namespace Primacy.Toml

open Decimal (Binary64)
open Settings (Value)
open Text (Reader)

/-! ## Numbers -/

/-- Digits of a base, single underscores between them left out. -/
def digits (isDigit : Char → Bool) : Read (List Char) := do
  let one : Read (List Char) := do
    let cs ← Reader.takeWhile isDigit
    if cs.isEmpty then refuse else return cs
  let first ← one
  Reader.iterate .malformed (fun (before : List Char) => do
    if ← Reader.accept '_' then return .inl (before ++ (← one)) else return .inr before) first

/-- An integer of 64 bits. -/
def ofInteger (n : Int) : Read Value :=
  if Text.int64Min ≤ n ∧ n ≤ Text.int64Max then pure (.integer n) else refuse

/-- Digits of base `base`, behind the letter that tells the base. -/
def basedInteger (base : Nat) : Read Value := do
  let isDigit := fun c => match Json.hexValue? c with
    | some d => decide (d < base)
    | none => false
  let ds ← digits isDigit
  ofInteger (ds.foldl (fun (n : Nat) c => n * base + (Json.hexValue? c).getD 0) 0 : Nat)

/-- The digits before a point: no zero in front of others. -/
def wholeDigits : Read (List Char) := do
  if ← Reader.accept '0' then return ['0'] else digits Text.isDigit

/-- A float; one too large upwards is refused. -/
def ofFloat (text : List Char) : Read Value :=
  match Binary64.read? (String.ofList text) with
  | none => refuse
  | some (.infinite false) => refuse
  | some x => pure (.float x)

/-- An exponent with its letter, if there is one. -/
def exponent : Read (List Char) := do
  match ← Reader.peek with
  | some c =>
    if c = 'e' ∨ c = 'E' then
      Reader.skip 1
      let sign ← if ← Reader.accept '-' then pure ['-'] else do
        let _ ← Reader.accept '+'
        pure []
      return 'e' :: sign ++ (← digits Text.isDigit)
    else return []
  | none => return []

/-- A number behind its sign. -/
def decimalNumber (negative : Bool) : Read Value := do
  if ← Reader.acceptWord "inf" then return .float (.infinite negative)
  else if ← Reader.acceptWord "nan" then return .float .nan
  else
    let whole ← wholeDigits
    let sign := if negative then ['-'] else []
    let fraction ← if ← Reader.accept '.' then do pure ('.' :: (← digits Text.isDigit)) else pure []
    let exp ← exponent
    if fraction.isEmpty && exp.isEmpty then
      let n := Text.digitsValue whole
      ofInteger (if negative then -(n : Int) else n)
    else ofFloat (sign ++ whole ++ fraction ++ exp)

def number : Read Value := do
  if ← Reader.acceptWord "0x" then basedInteger 16
  else if ← Reader.acceptWord "0o" then basedInteger 8
  else if ← Reader.acceptWord "0b" then basedInteger 2
  else if ← Reader.accept '-' then decimalNumber true
  else
    let _ ← Reader.accept '+'
    decimalNumber false

/-! ## Dates and times -/

/-- A number of exactly `n` digits, from `low` to `high`. -/
def fixed (n low high : Nat) : Read (List Char) := do
  let cs ← Reader.rest
  let ds := cs.take n
  let v := Text.digitsValue ds
  if ds.length = n ∧ ds.all Text.isDigit ∧ low ≤ v ∧ v ≤ high then
    Reader.skip n
    return ds
  else refuse

def daysIn (year month : Nat) : Nat :=
  if month = 2 then
    if year % 4 = 0 ∧ (year % 100 ≠ 0 ∨ year % 400 = 0) then 29 else 28
  else if [4, 6, 9, 11].contains month then 30
  else 31

/-- A date begins here: four digits and a hyphen. -/
def startsDate (cs : List Char) : Bool :=
  (cs.take 4).length == 4 && (cs.take 4).all Text.isDigit && (cs.drop 4).head? == some '-'

/-- A time begins here: an hour and a colon. -/
def startsTime (cs : List Char) : Bool :=
  (cs.take 2).length == 2 && (cs.take 2).all Text.isDigit && (cs.drop 2).head? == some ':' &&
    decide (Text.digitsValue (cs.take 2) ≤ 23)

def date : Read (List Char) := do
  let year ← fixed 4 0 9999
  expect '-'
  let month ← fixed 2 1 12
  expect '-'
  let day ← fixed 2 1 (daysIn (Text.digitsValue year) (Text.digitsValue month))
  return year ++ '-' :: month ++ '-' :: day

/-- The fraction of a second: nine places count, zeros at the end are left out. -/
def fraction : Read (List Char) := do
  if ← Reader.accept '.' then
    let ds ← Reader.takeWhile Text.isDigit
    if ds.isEmpty then refuse
    let places := ((ds.take 9).reverse.dropWhile (· == '0')).reverse
    return if places.isEmpty then [] else '.' :: places
  else return []

def time : Read (List Char) := do
  let hour ← fixed 2 0 23
  expect ':'
  let minute ← fixed 2 0 59
  expect ':'
  let second ← fixed 2 0 60
  return hour ++ ':' :: minute ++ ':' :: second ++ (← fraction)

/-- The offset of a time, if it has one.  No offset is negative zero. -/
def offset : Read (List Char) := do
  match ← Reader.peek with
  | some c =>
    if c = 'Z' ∨ c = 'z' then
      Reader.skip 1
      return ['Z']
    else if c = '+' ∨ c = '-' then
      Reader.skip 1
      let hour ← fixed 2 0 23
      expect ':'
      let minute ← fixed 2 0 59
      let isZero := Text.digitsValue hour = 0 ∧ Text.digitsValue minute = 0
      return (if isZero then '+' else c) :: hour ++ ':' :: minute
    else return []
  | none => return []

/-- A date with or without a time. -/
def dateTime : Read Value := do
  let day ← date
  let cs ← Reader.rest
  match cs with
  | c :: rest =>
    if (c = 'T' ∨ c = 't' ∨ c = ' ') ∧ startsTime rest then
      Reader.skip 1
      let clock ← time
      return .text (String.ofList (day ++ 'T' :: clock ++ (← offset)))
    else return .text (String.ofList day)
  | [] => return .text (String.ofList day)

/-- A number, a date or a time. -/
def numberOrDate : Read Value := do
  let cs ← Reader.rest
  if startsDate cs then dateTime
  else if startsTime cs then return .text (String.ofList (← time))
  else number

end Primacy.Toml
