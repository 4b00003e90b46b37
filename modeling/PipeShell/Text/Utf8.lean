/-!
# Text as bytes

The environment, paths and streams hold bytes; the shell's lines and settings
hold text.  `encode` and `decode?` go between the two in UTF-8.  `decodeLossy`
reads any bytes: each maximal ill-formed piece becomes one replacement
character, so that no input line is ever refused for its bytes.
-/

set_option autoImplicit false

namespace PipeShell

/-- What the operating system hands out and takes: bytes of no declared encoding. -/
abbrev Bytes := List UInt8

namespace Text

def encode (text : String) : Bytes :=
  text.toUTF8.data.toList

/-- The text whose UTF-8 form the bytes are, if there is one. -/
def decode? (bytes : Bytes) : Option String :=
  String.fromUTF8? ⟨bytes.toArray⟩

/-- U+FFFD, which stands for bytes that are not text. -/
def replacement : Char := Char.ofNat 0xFFFD

def isContinuation (b : UInt8) : Bool := 0x80 ≤ b && b ≤ 0xBF

/-- What the second byte of a sequence that begins with `lead` has to be. -/
def isSecond (lead b : UInt8) : Bool :=
  let low : UInt8 := if lead = 0xE0 then 0xA0 else if lead = 0xF0 then 0x90 else 0x80
  let high : UInt8 := if lead = 0xED then 0x9F else if lead = 0xF4 then 0x8F else 0xBF
  low ≤ b && b ≤ high

/-- The number of bytes in a sequence that begins with `lead`. -/
def sequenceLength? (lead : UInt8) : Option Nat :=
  if lead < 0x80 then some 1
  else if 0xC2 ≤ lead && lead ≤ 0xDF then some 2
  else if 0xE0 ≤ lead && lead ≤ 0xEF then some 3
  else if 0xF0 ≤ lead && lead ≤ 0xF4 then some 4
  else none

/-- The continuation bytes at the head of `rest` that belong to a sequence begun by `lead`, at
most `wanted` of them. -/
def continuationOf (lead : UInt8) (wanted : Nat) (rest : Bytes) : Bytes :=
  match wanted, rest with
  | 0, _ => []
  | _, [] => []
  | wanted + 1, b :: rest =>
    if isSecond lead b then b :: (rest.take wanted).takeWhile isContinuation else []

/-- The character of a complete sequence. -/
def assemble (lead : UInt8) (tail : Bytes) : Char :=
  let head := match tail.length with
    | 0 => lead.toNat
    | 1 => lead.toNat % 32
    | 2 => lead.toNat % 16
    | _ => lead.toNat % 8
  Char.ofNat (tail.foldl (fun code b => code * 64 + b.toNat % 64) head)

/-- The characters of the bytes, with one replacement character for each maximal ill-formed
piece. -/
def lossyChars : Bytes → List Char
  | [] => []
  | lead :: rest =>
    match sequenceLength? lead with
    | none => replacement :: lossyChars rest
    | some n =>
      let tail := continuationOf lead (n - 1) rest
      let c := if tail.length + 1 = n then assemble lead tail else replacement
      c :: lossyChars (rest.drop tail.length)
termination_by bytes => bytes.length
decreasing_by
  all_goals simp only [List.length_drop, List.length_cons]; omega

def decodeLossy (bytes : Bytes) : String :=
  String.ofList (lossyChars bytes)

/-- ASCII bytes decode to themselves. -/
theorem lossyChars_cons_ascii {b : UInt8} {rest : Bytes} (h : b < 0x80) :
    lossyChars (b :: rest) = Char.ofNat b.toNat :: lossyChars rest := by
  rw [lossyChars]
  simp [sequenceLength?, h, continuationOf, assemble]

end Text

end PipeShell
