import StackCode.Json.Document

namespace StackCode.Json

def isBlank (c : Char) : Bool := c == ' ' || c == '\n' || c == '\t' || c == '\r'

def skipBlanks (text : List Char) : List Char := text.dropWhile isBlank

def unexpected (rest : List Char) : Flaw := if rest.isEmpty then .truncated else .malformed

def behindWord : List Char → List Char → Except Flaw (List Char)
  | [], text => .ok text
  | _ :: _, [] => .error .truncated
  | w :: word, c :: text => if w = c then behindWord word text else .error .malformed

/-! ### Numbers -/

def ofDigits (digits : List Char) : Nat :=
  digits.foldl (fun n c => 10 * n + (c.toNat - 48)) 0

def someDigits (text : List Char) : Except Flaw (List Char × List Char) :=
  match text.takeWhile Char.isDigit with
  | [] => .error (unexpected text)
  | digits => .ok (digits, text.dropWhile Char.isDigit)

def readFraction : List Char → Except Flaw (List Char × List Char)
  | '.' :: text => someDigits text
  | text => .ok ([], text)

def readExponentDigits (negative : Bool) (text : List Char) : Except Flaw (Int × List Char) := do
  let (digits, rest) ← someDigits text
  let n : Int := ofDigits digits
  return (if negative then -n else n, rest)

def readExponent : List Char → Except Flaw (Option Int × List Char)
  | c :: text =>
    if c = 'e' ∨ c = 'E' then do
      let (n, rest) ← match text with
        | '+' :: text => readExponentDigits false text
        | '-' :: text => readExponentDigits true text
        | text => readExponentDigits false text
      return (some n, rest)
    else .ok (none, c :: text)
  | [] => .ok (none, [])

def readNumeral (negative : Bool) (text : List Char) : Except Flaw (Numeral × List Char) := do
  let (whole, rest) ← someDigits text
  match whole with
  | '0' :: _ :: _ => .error .malformed
  | _ =>
    let (fraction, rest) ← readFraction rest
    let (exponent, rest) ← readExponent rest
    return ({ negative
              digits := ofDigits (whole ++ fraction)
              exponent := exponent.getD 0 - fraction.length
              integral := fraction.isEmpty && exponent.isNone }, rest)

/-! ### Strings -/

inductive Piece where
  | char (c : Char)
  | unit (n : Nat)
deriving DecidableEq, Repr

def hexValue? (c : Char) : Option Nat :=
  let n := c.toNat
  if 48 ≤ n && n ≤ 57 then some (n - 48)
  else if 65 ≤ n && n ≤ 70 then some (n - 55)
  else if 97 ≤ n && n ≤ 102 then some (n - 87)
  else none

def unit? (a b c d : Char) : Option Nat := do
  let a ← hexValue? a
  let b ← hexValue? b
  let c ← hexValue? c
  let d ← hexValue? d
  return ((a * 16 + b) * 16 + c) * 16 + d

def simpleEscape? (c : Char) : Option Char :=
  if c = '"' || c = '\\' || c = '/' then some c
  else if c = 'b' then some (Char.ofNat 8)
  else if c = 'f' then some (Char.ofNat 12)
  else if c = 'n' then some '\n'
  else if c = 'r' then some '\r'
  else if c = 't' then some '\t'
  else none

def byteSize (text : List Char) : Nat := (text.map Char.utf8Size).foldr (· + ·) 0

/-- The pieces of a string behind its opening quote, and the text behind the closing one. The four
digits of an escape are four bytes: with fewer left the text ends too early. -/
def scanString : List Char → List Piece × Except Flaw (List Char)
  | [] => ([], .error .truncated)
  | '"' :: rest => ([], .ok rest)
  | '\\' :: 'u' :: a :: b :: c :: d :: rest =>
    match unit? a b c d with
    | some n =>
      let (pieces, rest) := scanString rest
      (.unit n :: pieces, rest)
    | none => ([], .error .malformed)
  | '\\' :: 'u' :: short => ([], .error (if byteSize short < 4 then .truncated else .malformed))
  | '\\' :: e :: rest =>
    match simpleEscape? e with
    | some c =>
      let (pieces, rest) := scanString rest
      (.char c :: pieces, rest)
    | none => ([], .error .malformed)
  | ['\\'] => ([], .error .truncated)
  | c :: rest =>
    if c.toNat < 0x20 then ([], .error .malformed)
    else
      let (pieces, rest) := scanString rest
      (.char c :: pieces, rest)

def isLead (n : Nat) : Bool := 0xD800 ≤ n && n ≤ 0xDBFF

def isTrail (n : Nat) : Bool := 0xDC00 ≤ n && n ≤ 0xDFFF

def pairChar (lead trail : Nat) : Char :=
  Char.ofNat (0x10000 + (lead - 0xD800) * 0x400 + (trail - 0xDC00))

/-- The characters that pieces stand for. A leading surrogate at the very end has the flaw
`last`. -/
def joinPieces (last : Flaw) : List Piece → Except Flaw (List Char)
  | [] => .ok []
  | .char c :: rest => return c :: (← joinPieces last rest)
  | [.unit n] =>
    if isLead n then .error last
    else if isTrail n then .error .malformed
    else .ok [Char.ofNat n]
  | .unit n :: .unit m :: rest =>
    if isLead n then
      if isTrail m then return pairChar n m :: (← joinPieces last rest) else .error .malformed
    else if isTrail n then .error .malformed
    else return Char.ofNat n :: (← joinPieces last (.unit m :: rest))
  | .unit n :: rest =>
    if isLead n || isTrail n then .error .malformed
    else return Char.ofNat n :: (← joinPieces last rest)

def readString (text : List Char) : Except Break (Spelling × List Char) :=
  match scanString text with
  | (pieces, .ok rest) => .ok ((joinPieces .malformed pieces).map String.ofList, rest)
  | (pieces, .error flaw) =>
    match joinPieces flaw pieces with
    | .ok _ => .error (.string flaw flaw)
    | .error reading => .error (.string reading flaw)

/-! ### Values -/

def readWord (value : Document) (misspelt : Flaw → Break) (word text : List Char) :
    Document × Option (List Char) :=
  match behindWord word text with
  | .ok rest => (value, some rest)
  | .error flaw => (.broken (misspelt flaw), none)

def readNumber (negative : Bool) (text : List Char) : Document × Option (List Char) :=
  match readNumeral negative text with
  | .ok (n, rest) => (.number n, some rest)
  | .error flaw => (.broken (.number flaw), none)

mutual

/-- The document in front of a text and the text behind it, if the document is whole. Every step
takes one unit of `fuel`. -/
def readValue : (fuel : Nat) → List Char → Document × Option (List Char)
  | 0, _ => (.broken .nothing, none)
  | fuel + 1, text =>
    match skipBlanks text with
    | [] => (.broken .nothing, none)
    | c :: rest =>
      if c = '\x7b' then
        match skipBlanks rest with
        | '\x7d' :: rest => (.object .done, some rest)
        | rest =>
          let (members, rest) := readMembers fuel rest
          (.object members, rest)
      else if c = '[' then
        match skipBlanks rest with
        | ']' :: rest => (.array .done, some rest)
        | rest =>
          let (items, rest) := readItems fuel rest
          (.array items, rest)
      else if c = '"' then
        match readString rest with
        | .ok (text, rest) => (.string text, some rest)
        | .error what => (.broken what, none)
      else if c = 'n' then readWord .null .null ['u', 'l', 'l'] rest
      else if c = 't' then readWord (.bool true) .bool ['r', 'u', 'e'] rest
      else if c = 'f' then readWord (.bool false) .bool ['a', 'l', 's', 'e'] rest
      else if c = '-' then readNumber true rest
      else if c.isDigit then readNumber false (c :: rest)
      else (.broken .stray, none)

def readItems : (fuel : Nat) → List Char → Items × Option (List Char)
  | 0, _ => (.cut .truncated, none)
  | fuel + 1, text =>
    match readValue fuel text with
    | (value, none) => (.item value .done, none)
    | (value, some rest) =>
      match skipBlanks rest with
      | ',' :: rest =>
        let (items, rest) := readItems fuel rest
        (.item value items, rest)
      | ']' :: rest => (.item value .done, some rest)
      | rest => (.item value (.cut (unexpected rest)), none)

def readMembers : (fuel : Nat) → List Char → Members × Option (List Char)
  | 0, _ => (.cut .truncated, none)
  | fuel + 1, text =>
    match readValue fuel text with
    | (.string key, some rest) =>
      match skipBlanks rest with
      | ':' :: rest =>
        match readValue fuel rest with
        | (value, none) => (.member key value .done, none)
        | (value, some rest) =>
          match skipBlanks rest with
          | ',' :: rest =>
            let (members, rest) := readMembers fuel rest
            (.member key value members, rest)
          | '\x7d' :: rest => (.member key value .done, some rest)
          | rest => (.member key value (.cut (unexpected rest)), none)
      | rest => (.member key (.broken (.colon (unexpected rest))) .done, none)
    | (found, _) => (.stray found, none)

end

/-- The document in front of a text, and the flaw of what follows it. Two units of fuel a
character are enough: a bracket takes a step for the value and one for what it holds. -/
def Document.ofText (text : String) : Document × Option Flaw :=
  let chars := text.toList
  let (document, rest) := readValue (2 * chars.length + 2) chars
  (document, if (skipBlanks (rest.getD [])).isEmpty then none else some .malformed)

end StackCode.Json
