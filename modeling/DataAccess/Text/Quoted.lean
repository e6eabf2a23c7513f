import DataAccess.Text.Unprintable
import DataAccess.Value

namespace DataAccess.Text

/-- How one character stands in quoted text. -/
def quoteChar (c : Char) : List Char :=
  if c = '"' then ['\\', '"']
  else if c = '\\' then ['\\', '\\']
  else if c = '\n' then ['\\', 'n']
  else if c = '\r' then ['\\', 'r']
  else if c = '\t' then ['\\', 't']
  else if c.toNat = 0 then ['\\', '0']
  else if isUnprintable c then
    ['\\', 'u', Char.ofNat 0x7b] ++ Nat.toDigits 16 c.toNat ++ [Char.ofNat 0x7d]
  else [c]

def quoteChars (text : List Char) : List Char :=
  '"' :: (text.flatMap quoteChar ++ ['"'])

def quoted (text : String) : String := String.ofList (quoteChars text.toList)

/-- Items between brackets. -/
def bracketed (shown : List (List Char)) : List Char :=
  '[' :: (List.intercalate [',', ' '] shown ++ [']'])

def quotedList (texts : List String) : String :=
  String.ofList (bracketed (texts.map fun text => quoteChars text.toList))

mutual

/-- A value with the name of its kind. -/
def describe : Value → List Char
  | .null => "Null".toList
  | .bool b => "Bool(".toList ++ (if b then "true" else "false").toList ++ [')']
  | .number n => "Number(".toList ++ n.text ++ [')']
  | .string s => "String(".toList ++ quoteChars s.toList ++ [')']
  | .sequence items => "Array ".toList ++ bracketed (describeItems items)
  | .map fields =>
      "Object ".toList ++ Char.ofNat 0x7b ::
        (List.intercalate [',', ' '] (describeFields fields) ++ [Char.ofNat 0x7d])

def describeItems : List Value → List (List Char)
  | [] => []
  | item :: rest => describe item :: describeItems rest

def describeFields : List (String × Value) → List (List Char)
  | [] => []
  | (key, value) :: rest =>
      (quoteChars key.toList ++ ':' :: ' ' :: describe value) :: describeFields rest

end

def describedList (values : List Value) : String :=
  String.ofList (bracketed (values.map describe))

end DataAccess.Text
