import Mathlib.Data.List.DropRight
import Mathlib.Data.Rat.Init

/-!
How ODPI-C converts between texts and Oracle numbers: the parsers of a number text and
of an `OCINumber` (`dpiUtils.c`), and the conversions over them (`dpiData.c`).  Texts are
in a single-byte encoding or in UTF-8.
-/

namespace OracleNIO.Dpi

/-- The `DPI_ERR_` numbers of the conversions, and `overrun`, which is no error of the code:
it has written behind the array of the digits. -/
inductive NumberErrorNumber where
  | invalidNumber | numberStringTooLong | notSupported | numberNoRepr | invalidOciNumber
  | bufferSizeTooSmall (length : Nat)
  | overrun
deriving DecidableEq, Repr

/-- An error by its action and its number. -/
structure NumberError where
  action : String
  number : NumberErrorNumber
deriving DecidableEq, Repr

/-- `DPI_NUMBER_AS_TEXT_CHARS` -/
def numberAsTextChars : Nat := 172

/-- `DPI_NUMBER_MAX_DIGITS` -/
def numberMaxDigits : Nat := 40

/-- The bytes of an `OCINumber`, the one with the length included. -/
def ociNumberSize : Nat := 22

/-- What both of the parsers fill in; `numDigits` is the length of `digits`. -/
structure NumberParts where
  isNegative : Bool
  decimalPointIndex : Int
  digits : List Nat
deriving DecidableEq, Repr

def minus : UInt8 := '-'.toUInt8

def plus : UInt8 := '+'.toUInt8

def point : UInt8 := '.'.toUInt8

def isExponentMarker (c : UInt8) : Bool := c == 'e'.toUInt8 || c == 'E'.toUInt8

def isDecimalDigit (c : UInt8) : Bool := '0'.toUInt8 ≤ c && c ≤ '9'.toUInt8

def digitOf (c : UInt8) : Nat := (c - '0'.toUInt8).toNat

def digitChar (digit : Nat) : UInt8 := '0'.toUInt8 + UInt8.ofNat digit

/-- The digits until the decimal point or the exponent, and the text from there. -/
def scanWhole : List UInt8 → List Nat → Except NumberError (List Nat × List UInt8)
  | [], digits => .ok (digits, [])
  | c :: value, digits =>
      if c = point ∨ isExponentMarker c then .ok (digits, c :: value)
      else if !isDecimalDigit c then
        .error ⟨"check digits before decimal point", .invalidNumber⟩
      -- leading zeros are not kept
      else if digitOf c = 0 ∧ digits = [] then scanWhole value digits
      else scanWhole value (digits ++ [digitOf c])

/-- The digits until the exponent; a zero before the first digit moves the point. -/
def scanFraction : List UInt8 → Int → List Nat →
    Except NumberError (Int × List Nat × List UInt8)
  | [], decimalPointIndex, digits => .ok (decimalPointIndex, digits, [])
  | c :: value, decimalPointIndex, digits =>
      if isExponentMarker c then .ok (decimalPointIndex, digits, c :: value)
      else if !isDecimalDigit c then
        .error ⟨"check digits after decimal point", .invalidNumber⟩
      else if digitOf c = 0 ∧ digits = [] then
        scanFraction value (decimalPointIndex - 1) digits
      else scanFraction value decimalPointIndex (digits ++ [digitOf c])

/-- The digits before the point, up to a point, an exponent or the end. -/
def scanPoint : List UInt8 → List Nat → Except NumberError (Int × List Nat × List UInt8)
  | [], digits => .ok (digits.length, digits, [])
  | c :: value, digits =>
      if c = point then scanFraction value digits.length digits
      else .ok (digits.length, digits, c :: value)

/-- The rest of the text, as the digits of the exponent. -/
def scanExponentDigits : List UInt8 → List Nat → Except NumberError (List Nat)
  | [], exponentDigits => .ok exponentDigits
  | c :: value, exponentDigits =>
      if !isDecimalDigit c then .error ⟨"check digits in exponent", .invalidNumber⟩
      else if exponentDigits.length = 3 then
        .error ⟨"check exponent digits > 3", .notSupported⟩
      else scanExponentDigits value (exponentDigits ++ [digitOf c])

/-- `strtol` of the digits. -/
def decimalNumber (digits : List Nat) : Nat :=
  digits.foldl (fun number digit => 10 * number + digit) 0

/-- The exponent, when the text has one, and the text that is left. -/
def scanExponent : List UInt8 → Except NumberError (Int × List UInt8)
  | [] => .ok (0, [])
  | c :: value =>
      if isExponentMarker c then do
        let exponentIsNegative := value.head? = some minus
        let signed := exponentIsNegative ∨ value.head? = some plus
        let exponentDigits ← scanExponentDigits (if signed then value.tail else value) []
        if exponentDigits = [] then .error ⟨"no digits in exponent", .invalidNumber⟩
        else
          let exponent : Int := decimalNumber exponentDigits
          .ok (if exponentIsNegative then -exponent else exponent, [])
      else .ok (0, c :: value)

def stripTrailingZeros (digits : List Nat) : List Nat :=
  digits.rdropWhile (· == 0)

/-- `dpiUtils__parseNumberString`. -/
def parseNumberString (value : List UInt8) : Except NumberError NumberParts := do
  if value.length = 0 then .error ⟨"zero length", .invalidNumber⟩
  else if value.length > numberAsTextChars then
    .error ⟨"check length", .numberStringTooLong⟩
  else
    let isNegative := value.head? == some minus
    let (digits, value) ← scanWhole (if isNegative then value.tail else value) []
    let (decimalPointIndex, digits, value) ← scanPoint value digits
    let (exponent, value) ← scanExponent value
    if value ≠ [] then .error ⟨"check string used", .invalidNumber⟩
    else
      let digits := stripTrailingZeros digits
      let decimalPointIndex := decimalPointIndex + exponent
      if digits.length > numberMaxDigits ∨ decimalPointIndex > 126 ∨
          decimalPointIndex < -129 then
        .error ⟨"check value can be represented", .numberNoRepr⟩
      else .ok ⟨isNegative, decimalPointIndex, digits⟩

/-- The value of each mantissa byte; the first takes one digit after a prepended zero. -/
def mantissaPairs : Bool → Nat → List Nat → List Nat
  | _, 0, _ => []
  | true, numPairs + 1, source =>
      source.headD 0 :: mantissaPairs false numPairs source.tail
  | false, numPairs + 1, source =>
      (source.headD 0 * 10 + source.tail.headD 0) ::
        mantissaPairs false numPairs source.tail.tail

/-- The byte of two digits. -/
def mantissaByte (isNegative : Bool) (pair : Nat) : UInt8 :=
  if isNegative then 101 - UInt8.ofNat pair else UInt8.ofNat pair + 1

/-- The first byte, of the sign and the exponent. -/
def exponentByte (isNegative : Bool) (decimalPointIndex : Int) : UInt8 :=
  let ociExponent := UInt8.ofInt ((decimalPointIndex - 2).tdiv 2 + 193)
  if isNegative then ~~~ociExponent else ociExponent

namespace NumberParts

variable (number : NumberParts)

/-- Whether the digits start in the middle of a pair. -/
def prependZero : Bool :=
  (0 < number.decimalPointIndex ∧ number.decimalPointIndex.tmod 2 = 1) ∨
    (number.decimalPointIndex < 0 ∧ number.decimalPointIndex.tmod 2 = -1)

/-- An even number of digits before the point and in all. -/
def padded : NumberParts :=
  let number :=
    if number.prependZero ∧ number.digits ≠ [] then
      { number with
        digits := number.digits ++ [0]
        decimalPointIndex := number.decimalPointIndex + 1 }
    else number
  if number.digits.length % 2 = 1 then { number with digits := number.digits ++ [0] }
  else number

def numPairs : Nat := number.padded.digits.length / 2

/-- Whether a byte of 102 ends a negative number. -/
def appendSentinel : Bool :=
  number.isNegative && 0 < number.padded.digits.length &&
    number.padded.digits.length < numberMaxDigits

/-- The bytes that `dpiDataBuffer__toOracleNumberFromText` writes for a parsed text. -/
def toOracleNumber : List UInt8 :=
  UInt8.ofNat (number.numPairs + 1 + number.appendSentinel.toNat) ::
    if number.padded.digits = [] then [128]
    else
      exponentByte number.isNegative number.padded.decimalPointIndex ::
        ((mantissaPairs number.prependZero number.numPairs number.padded.digits).map
            (mantissaByte number.isNegative) ++
          if number.appendSentinel then [102] else [])

end NumberParts

/-- `dpiDataBuffer__toOracleNumberFromText`. -/
def toOracleNumberFromText (text : List UInt8) : Except NumberError (List UInt8) := do
  let number ← parseNumberString text
  return number.toOracleNumber

/-- One turn of the mantissa loop of `dpiUtils__parseOracleNumber`. -/
def parseMantissaByte (first last : Bool) (byte : UInt8) (number : NumberParts) :
    NumberParts :=
  let byte := if number.isNegative then 101 - byte else byte - 1
  let digit := (byte / 10).toNat
  let number :=
    if digit = 0 ∧ first then
      { number with decimalPointIndex := number.decimalPointIndex - 1 }
    else if digit = 10 then
      { number with
        decimalPointIndex := number.decimalPointIndex + 1
        digits := number.digits ++ [1, 0] }
    else { number with digits := number.digits ++ [digit] }
  let digit := (byte % 10).toNat
  if digit = 0 ∧ last then number
  else { number with digits := number.digits ++ [digit] }

/-- The bytes after the exponent. -/
def parseMantissa : Bool → List UInt8 → NumberParts → NumberParts
  | _, [], number => number
  | first, byte :: source, number =>
      parseMantissa false source (parseMantissaByte first source.isEmpty byte number)

/-- `dpiUtils__parseOracleNumber`, into an array of `numberMaxDigits`; the bytes after the
mantissa are not read. -/
def parseOracleNumber (oracleValue : List UInt8) : Except NumberError NumberParts :=
  let length := (oracleValue.headD 0 - 1).toNat
  if length > 20 then .error ⟨"check mantissa length", .invalidOciNumber⟩
  else
    let ociExponent := oracleValue.tail.headD 0
    let isNegative := ociExponent &&& 0x80 == 0
    let ociExponent := if isNegative then ~~~ociExponent else ociExponent
    -- the exponent is an `int8_t`
    let decimalPointIndex := (ociExponent - 193).toInt8.toInt * 2 + 2
    if length = 0 then
      if isNegative then .ok ⟨isNegative, 127, [1]⟩
      else .ok ⟨isNegative, 1, [0]⟩
    else
      let source := oracleValue.tail.tail.take length
      let source := if isNegative ∧ source.getLast? = some 102 then source.dropLast else source
      let number := parseMantissa true source ⟨isNegative, decimalPointIndex, []⟩
      -- only a mantissa byte that is no digit of base 100 takes more than two digits
      if number.digits.length > numberMaxDigits then .error ⟨"write digits", .overrun⟩
      else .ok number

/-- The loop over the digits: the point stands before the digit of its index. -/
def digitChars (decimalPointIndex : Int) : Nat → List Nat → List UInt8
  | _, [] => []
  | i, digit :: digits =>
      (if 0 < i ∧ (i : Int) = decimalPointIndex then [point] else []) ++
        digitChar digit :: digitChars decimalPointIndex (i + 1) digits

namespace NumberParts

variable (number : NumberParts)

/-- The length of the text. -/
def numBytes : Nat :=
  let sign := if number.isNegative then 1 else 0
  let numDigits := number.digits.length
  numDigits + sign +
    if number.decimalPointIndex ≤ 0 then (-number.decimalPointIndex).toNat + 2
    else if number.decimalPointIndex < numDigits then 1
    else (number.decimalPointIndex - numDigits).toNat

/-- The text, which has a point where the number is no integer. -/
def asText : List UInt8 :=
  (if number.isNegative then [minus] else []) ++
    (if number.decimalPointIndex ≤ 0 then
      digitChar 0 :: point ::
        List.replicate (-number.decimalPointIndex).toNat (digitChar 0)
    else []) ++
    digitChars number.decimalPointIndex 0 number.digits ++
    if number.decimalPointIndex > number.digits.length then
      List.replicate (number.decimalPointIndex - number.digits.length).toNat (digitChar 0)
    else []

end NumberParts

/-- `dpiDataBuffer__fromOracleNumberAsText`, into a buffer of this length. -/
def fromOracleNumberAsText (oracleValue : List UInt8) (length : Nat) :
    Except NumberError (List UInt8) := do
  let number ← parseOracleNumber oracleValue
  if number.numBytes > length then
    .error ⟨"check number to text size", .bufferSizeTooSmall length⟩
  else return number.asText

end OracleNIO.Dpi
