namespace ControlDeck.Text

/-- Where and how a sequence of bytes fails to be UTF-8. An incomplete character at the end has no
length. -/
structure Utf8Fault where
  index : Nat
  length : Option Nat
deriving DecidableEq, Repr

def Utf8Fault.message (f : Utf8Fault) : String :=
  match f.length with
  | some n =>
    "invalid utf-8 sequence of " ++ n.repr ++ " bytes from index " ++ f.index.repr
  | none => "incomplete utf-8 byte sequence from index " ++ f.index.repr

def isContinuation (b : UInt8) : Bool :=
  0x80 ≤ b && b < 0xC0

/-- The bytes that may follow the first byte of a character of more than two bytes. This leaves out
surrogates, code points out of range and longer forms than needed. -/
def isSecond (first second : UInt8) : Bool :=
  if first == 0xE0 then 0xA0 ≤ second && second < 0xC0
  else if first == 0xED then 0x80 ≤ second && second < 0xA0
  else if first == 0xF0 then 0x90 ≤ second && second < 0xC0
  else if first == 0xF4 then 0x80 ≤ second && second < 0x90
  else isContinuation second

def codePoint (first mask : UInt8) (rest : List UInt8) : Char :=
  Char.ofNat (rest.foldl (fun n b => n * 64 + (b &&& 0x3F).toNat) (first &&& mask).toNat)

/-- The character at the start of a sequence of bytes and the number of its bytes, or the number of
bytes that are not a character; none if the sequence ends within one. -/
def decodeChar : List UInt8 → Except (Option Nat) (Char × Nat)
  | [] => .error none
  | b :: rest =>
    if b < 0x80 then .ok (Char.ofNat b.toNat, 1)
    else if 0xC2 ≤ b && b < 0xE0 then
      match rest with
      | [] => .error none
      | c :: _ => if isContinuation c then .ok (codePoint b 0x1F [c], 2) else .error (some 1)
    else if 0xE0 ≤ b && b < 0xF0 then
      match rest with
      | [] => .error none
      | c :: rest =>
        if !isSecond b c then .error (some 1)
        else
          match rest with
          | [] => .error none
          | d :: _ => if isContinuation d then .ok (codePoint b 0x0F [c, d], 3) else .error (some 2)
    else if 0xF0 ≤ b && b < 0xF5 then
      match rest with
      | [] => .error none
      | c :: rest =>
        if !isSecond b c then .error (some 1)
        else
          match rest with
          | [] => .error none
          | d :: rest =>
            if !isContinuation d then .error (some 2)
            else
              match rest with
              | [] => .error none
              | e :: _ =>
                if isContinuation e then .ok (codePoint b 0x07 [c, d, e], 4) else .error (some 3)
    else .error (some 1)

/-- The characters of the bytes that remain once `index` bytes have been read. -/
def decodeFrom (index : Nat) : List UInt8 → Except Utf8Fault (List Char)
  | [] => .ok []
  | b :: rest =>
    match decodeChar (b :: rest) with
    | .error length => .error ⟨index, length⟩
    | .ok (c, n) => (decodeFrom (index + n) (rest.drop (n - 1))).map (c :: ·)
termination_by bytes => bytes.length
decreasing_by grind

def decodeUtf8 (bytes : List UInt8) : Except Utf8Fault String :=
  (decodeFrom 0 bytes).map String.ofList

end ControlDeck.Text
