namespace DataAccess.Utf8

/-- How many bytes are text, and how long the sequence is that breaks off behind them. It has no
length where the bytes end too early. -/
structure Fault where
  validBytes : Nat
  length : Option Nat
deriving DecidableEq

def encode (text : String) : List UInt8 := text.toUTF8.toList

def isTail (byte : UInt8) : Bool := 0x80 ≤ byte && byte < 0xc0

/-- How many bytes follow a first byte, and the bounds of the second one. -/
def shape? (first : UInt8) : Option (Nat × UInt8 × UInt8) :=
  if first < 0x80 then some (0, 0x80, 0xbf)
  else if first < 0xc2 then none
  else if first < 0xe0 then some (1, 0x80, 0xbf)
  else if first < 0xf0 then
    some (2, if first = 0xe0 then 0xa0 else 0x80, if first = 0xed then 0x9f else 0xbf)
  else if first < 0xf5 then
    some (3, if first = 0xf0 then 0x90 else 0x80, if first = 0xf4 then 0x8f else 0xbf)
  else none

/-- What is wrong after `read` bytes of a sequence of which `missing` are still to come. -/
def tailFault? (read : Nat) : (missing : Nat) → (rest : List UInt8) → Option (Option Nat)
  | 0, _ => none
  | _ + 1, [] => some none
  | missing + 1, byte :: rest =>
      if isTail byte then tailFault? (read + 1) missing rest else some (some read)

/-- What is wrong with the sequence in front of some bytes. -/
def sequenceFault? (first : UInt8) (rest : List UInt8) : Option (Option Nat) :=
  match shape? first with
  | none => some (some 1)
  | some (0, _, _) => none
  | some (missing + 1, low, high) =>
      match rest with
      | [] => some none
      | second :: more =>
          if low ≤ second && second ≤ high then tailFault? 2 missing more else some (some 1)

/-- The first fault in some bytes, after `valid` bytes of text. The bytes of a sequence after the
first, `skip` of them, are passed over. -/
def fault? (valid skip : Nat) : List UInt8 → Option Fault
  | [] => none
  | byte :: rest =>
      match skip with
      | skip + 1 => fault? (valid + 1) skip rest
      | 0 =>
          match sequenceFault? byte rest with
          | some length => some { validBytes := valid, length }
          | none => fault? (valid + 1) ((shape? byte).map Prod.fst |>.getD 0) rest

def decode (bytes : List UInt8) : Except Fault String :=
  match fault? 0 0 bytes, String.fromUTF8? (ByteArray.mk bytes.toArray) with
  | some fault, _ => .error fault
  | none, some text => .ok text
  | none, none => .error { validBytes := 0, length := none }

end DataAccess.Utf8
