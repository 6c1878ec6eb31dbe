namespace JobScheduler.Text.Utf8

-- Where bytes stop being the encoding of a text: at a sequence of so many bytes that
-- no text begins with, or at the end in the middle of a sequence.
inductive Fault
  | invalid (length index : Nat)
  | incomplete (index : Nat)
deriving DecidableEq, Repr

def Fault.message : Fault → String
  | .invalid length index => s!"invalid utf-8 sequence of {length} bytes from index {index}"
  | .incomplete index => s!"incomplete utf-8 byte sequence from index {index}"

def isContinuation (b : UInt8) : Bool := 0x80 ≤ b && b ≤ 0xBF

-- The number of bytes of a sequence by its first byte, and the limits of the second
-- byte, which keep out overlong forms, surrogates and numbers above the last code point.
def lead? (b : UInt8) : Option (Nat × UInt8 × UInt8) :=
  if 0xC2 ≤ b && b ≤ 0xDF then some (2, 0x80, 0xBF)
  else if b = 0xE0 then some (3, 0xA0, 0xBF)
  else if b = 0xED then some (3, 0x80, 0x9F)
  else if 0xE1 ≤ b && b ≤ 0xEF then some (3, 0x80, 0xBF)
  else if b = 0xF0 then some (4, 0x90, 0xBF)
  else if 0xF1 ≤ b && b ≤ 0xF3 then some (4, 0x80, 0xBF)
  else if b = 0xF4 then some (4, 0x80, 0x8F)
  else none

def payload (b : UInt8) : Nat := b.toNat % 64

def decodeFrom (index : Nat) (done : List Char) : List UInt8 → Except Fault (List Char)
  | [] => .ok done.reverse
  | a :: rest =>
      if a < 0x80 then decodeFrom (index + 1) (Char.ofNat a.toNat :: done) rest
      else
        match lead? a, rest with
        | none, _ => .error (.invalid 1 index)
        | some _, [] => .error (.incomplete index)
        | some (width, low, high), b :: rest =>
            if !(low ≤ b && b ≤ high) then .error (.invalid 1 index)
            else if width = 2 then
              decodeFrom (index + 2) (Char.ofNat (a.toNat % 32 * 64 + payload b) :: done) rest
            else
              match rest with
              | [] => .error (.incomplete index)
              | c :: rest =>
                  if !isContinuation c then .error (.invalid 2 index)
                  else if width = 3 then
                    decodeFrom (index + 3)
                      (Char.ofNat ((a.toNat % 16 * 64 + payload b) * 64 + payload c) :: done) rest
                  else
                    match rest with
                    | [] => .error (.incomplete index)
                    | d :: rest =>
                        if !isContinuation d then .error (.invalid 3 index)
                        else
                          decodeFrom (index + 4)
                            (Char.ofNat (((a.toNat % 8 * 64 + payload b) * 64 + payload c) * 64
                              + payload d) :: done) rest

def decode (bytes : List UInt8) : Except Fault (List Char) := decodeFrom 0 [] bytes

def encode (text : String) : List UInt8 := text.toUTF8.data.toList

end JobScheduler.Text.Utf8
