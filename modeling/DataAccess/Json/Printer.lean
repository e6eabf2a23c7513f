import DataAccess.Value

namespace DataAccess.Json

def hexDigit (n : Nat) : Char :=
  if n < 10 then Char.ofNat (48 + n) else Char.ofNat (87 + n)

/-- How one character stands inside a JSON string. -/
def escape (c : Char) : List Char :=
  if c = '"' then ['\\', '"']
  else if c = '\\' then ['\\', '\\']
  else if c.toNat = 0x08 then ['\\', 'b']
  else if c.toNat = 0x09 then ['\\', 't']
  else if c.toNat = 0x0a then ['\\', 'n']
  else if c.toNat = 0x0c then ['\\', 'f']
  else if c.toNat = 0x0d then ['\\', 'r']
  else if c.toNat < 0x20 then
    ['\\', 'u', '0', '0', hexDigit (c.toNat / 16), hexDigit (c.toNat % 16)]
  else [c]

def escapeAll : List Char → List Char
  | [] => []
  | c :: rest => escape c ++ escapeAll rest

def quote (s : String) : List Char :=
  '"' :: (escapeAll s.toList ++ ['"'])

mutual

def write : Value → List Char
  | .null => ['n', 'u', 'l', 'l']
  | .bool true => ['t', 'r', 'u', 'e']
  | .bool false => ['f', 'a', 'l', 's', 'e']
  | .number n => n.text
  | .string s => quote s
  | .sequence items => '[' :: writeItems items
  | .map fields => Char.ofNat 0x7b :: writeFields fields

def writeItems : List Value → List Char
  | [] => [']']
  | item :: rest => write item ++ writeMoreItems rest

def writeMoreItems : List Value → List Char
  | [] => [']']
  | item :: rest => ',' :: (write item ++ writeMoreItems rest)

def writeFields : List (String × Value) → List Char
  | [] => [Char.ofNat 0x7d]
  | (key, value) :: rest => quote key ++ ':' :: (write value ++ writeMoreFields rest)

def writeMoreFields : List (String × Value) → List Char
  | [] => [Char.ofNat 0x7d]
  | (key, value) :: rest => ',' :: (quote key ++ ':' :: (write value ++ writeMoreFields rest))

end

end DataAccess.Json

namespace DataAccess

/-- The compact JSON text of a value. -/
def Value.toJson (v : Value) : String := String.ofList (Json.write v)

end DataAccess
