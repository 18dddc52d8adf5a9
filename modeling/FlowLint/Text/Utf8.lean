/-! Reading UTF-8. An ill-formed sequence is reported with the longest part of it that begins a
well-formed one. -/

namespace FlowLint.Text.Utf8

/-- What is wrong with a sequence of bytes. -/
inductive Reason where
  | startByte
  | continuation
  | endOfData
  deriving DecidableEq, Repr

/-- The bytes from `first` on, `count` of them, are no character; `byte` is the first of them. -/
structure Fault where
  byte : Nat
  first : Nat
  count : Nat
  reason : Reason
  deriving DecidableEq, Repr

def Reason.text : Reason → String
  | .startByte => "invalid start byte"
  | .continuation => "invalid continuation byte"
  | .endOfData => "unexpected end of data"

/-- One byte in two hexadecimal digits. -/
def hexByte (b : Nat) : String := .ofList [Nat.digitChar (b / 16), Nat.digitChar (b % 16)]

def Fault.message (f : Fault) : String :=
  (if f.count == 1 then
    s!"'utf-8' codec can't decode byte 0x{hexByte f.byte} in position {f.first}"
  else s!"'utf-8' codec can't decode bytes in position {f.first}-{f.first + f.count - 1}") ++
    s!": {f.reason.text}"

/-- A byte that continues a sequence. -/
def continues (b : Nat) : Bool := 0x80 ≤ b && b ≤ 0xBF

/-- `second` may follow the start byte `first` of a sequence of three or four bytes: it makes
neither an overlong form nor a surrogate nor a number beyond the last code point. -/
def mayFollow (first second : Nat) : Bool :=
  continues second &&
    (first != 0xE0 || 0xA0 ≤ second) && (first != 0xED || second ≤ 0x9F) &&
    (first != 0xF0 || 0x90 ≤ second) && (first != 0xF4 || second ≤ 0x8F)

/-- The bytes that a sequence with this start byte has; 0 if no sequence starts with it. -/
def sequenceLength (b : Nat) : Nat :=
  if b < 0x80 then 1
  else if b < 0xC2 then 0
  else if b < 0xE0 then 2
  else if b < 0xF0 then 3
  else if b < 0xF5 then 4
  else 0

/-- What is wrong with the start of `bytes`, a start byte and what follows it, if no character can
be read: how many bytes belong to the report, and the reason. -/
def diagnose (bytes : List Nat) : Nat × Reason :=
  match bytes with
  | [] => (0, .endOfData)
  | b :: rest =>
    let needed := sequenceLength b
    if needed == 0 then (1, .startByte)
    else match rest with
      | [] => (1, .endOfData)
      | c :: rest =>
        if !mayFollow b c then (1, .continuation)
        else match rest with
          | [] => (2, .endOfData)
          | d :: rest =>
            if !continues d then (2, .continuation)
            else if rest.isEmpty then (3, .endOfData) else (3, .continuation)

/-- Reads all bytes; the first argument is the position of the first byte. -/
def decodeFrom : Nat → List Nat → Except Fault (List Char)
  | _, [] => .ok []
  | i, b :: rest =>
    let fail : Except Fault (List Char) :=
      let (count, reason) := diagnose (b :: rest)
      .error ⟨b, i, count, reason⟩
    match sequenceLength b, rest with
    | 1, rest => (decodeFrom (i + 1) rest).map (Char.ofNat b :: ·)
    | 2, c :: rest =>
      if continues c then
        (decodeFrom (i + 2) rest).map (Char.ofNat ((b - 0xC0) * 64 + (c - 0x80)) :: ·)
      else fail
    | 3, c :: d :: rest =>
      if mayFollow b c && continues d then
        (decodeFrom (i + 3) rest).map
          (Char.ofNat (((b - 0xE0) * 64 + (c - 0x80)) * 64 + (d - 0x80)) :: ·)
      else fail
    | 4, c :: d :: e :: rest =>
      if mayFollow b c && continues d && continues e then
        (decodeFrom (i + 4) rest).map (Char.ofNat
          ((((b - 0xF0) * 64 + (c - 0x80)) * 64 + (d - 0x80)) * 64 + (e - 0x80)) :: ·)
      else fail
    | _, _ => fail

def decode (bytes : List Nat) : Except Fault (List Char) := decodeFrom 0 bytes

example : (decode [0x61, 0xE2, 0x82, 0xAC, 0xF0, 0x9F, 0x98, 0x80]).toOption =
    some ['a', '€', '😀'] := by decide +kernel
example : diagnose [0xE2, 0x28, 0xA1] = (1, .continuation) ∧
    diagnose [0xE2, 0x82] = (2, .endOfData) ∧
    diagnose [0xC0, 0x80] = (1, .startByte) ∧ diagnose [0xED, 0xA0, 0x80] = (1, .continuation) := by
  decide
example : Fault.message ⟨0xE2, 3, 2, .endOfData⟩ =
    "'utf-8' codec can't decode bytes in position 3-4: unexpected end of data" := by decide +kernel

end FlowLint.Text.Utf8
