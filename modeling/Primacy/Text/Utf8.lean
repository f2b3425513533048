/-
  Primacy.Text.Utf8

  UTF-8 read from bytes.  Ill-formed input is cut into maximal parts that could have begun a
  character: `decode?` refuses a file that has one, `decodeLossy` shows each as one U+FFFD.
-/

namespace Primacy.Text.Utf8

abbrev Bytes := List UInt8

/-- The bytes of a text. -/
def encode (s : String) : Bytes := s.toUTF8.toList

/-- Bytes that carry the low six bits of a character. -/
def isTail (b : UInt8) : Bool := 0x80 ≤ b && b ≤ 0xBF

/-- The second bytes that may follow lead byte `b` of a three- or four-byte character; the bounds
leave out overlong forms, surrogates and code points past U+10FFFF. -/
def secondOk (b c : UInt8) : Bool :=
  if b == 0xE0 then 0xA0 ≤ c && c ≤ 0xBF
  else if b == 0xED then 0x80 ≤ c && c ≤ 0x9F
  else if b == 0xF0 then 0x90 ≤ c && c ≤ 0xBF
  else if b == 0xF4 then 0x80 ≤ c && c ≤ 0x8F
  else isTail c

/-- The character of payload `hi` and the low six bits of each tail byte. -/
def assemble (hi : Nat) (tail : List UInt8) : Char :=
  Char.ofNat (tail.foldl (fun n b => n * 64 + (b.toNat - 0x80)) hi)

/-- The character that byte `b` begins in front of `rest` (`none` where the bytes are ill-formed),
and how many bytes of `rest` belong to it. -/
def head (b : UInt8) (rest : Bytes) : Option Char × Nat :=
  if b < 0x80 then (some (Char.ofNat b.toNat), 0)
  else if 0xC2 ≤ b && b ≤ 0xDF then
    match rest with
    | c :: _ => if isTail c then (some (assemble (b.toNat - 0xC0) [c]), 1) else (none, 0)
    | [] => (none, 0)
  else if 0xE0 ≤ b && b ≤ 0xEF then
    match rest with
    | c :: d :: _ =>
      if !secondOk b c then (none, 0)
      else if isTail d then (some (assemble (b.toNat - 0xE0) [c, d]), 2) else (none, 1)
    | [c] => (none, if secondOk b c then 1 else 0)
    | [] => (none, 0)
  else if 0xF0 ≤ b && b ≤ 0xF4 then
    match rest with
    | c :: d :: e :: _ =>
      if !secondOk b c then (none, 0)
      else if !isTail d then (none, 1)
      else if isTail e then (some (assemble (b.toNat - 0xF0) [c, d, e]), 3) else (none, 2)
    | [c, d] => (none, if secondOk b c then (if isTail d then 2 else 1) else 0)
    | [c] => (none, if secondOk b c then 1 else 0)
    | [] => (none, 0)
  else (none, 0)

/-- The characters of `bytes` in order, `none` for each ill-formed part. -/
def scan (bytes : Bytes) : List (Option Char) :=
  match bytes with
  | [] => []
  | b :: rest => (head b rest).1 :: scan (rest.drop (head b rest).2)
termination_by bytes.length
decreasing_by simp only [List.length_drop, List.length_cons]; omega

/-- The text of well-formed bytes. -/
def decode? (bytes : Bytes) : Option String :=
  ((scan bytes).mapM id).map String.ofList

/-- The text of any bytes, with U+FFFD for each ill-formed part. -/
def decodeLossy (bytes : Bytes) : List Char :=
  (scan bytes).map (·.getD '\uFFFD')

end Primacy.Text.Utf8
