import DataAccess.Text.Decimal

namespace DataAccess.Sql

inductive Flavor
  | sqlite | mySql | postgreSql | msSql | oracle
deriving DecidableEq

namespace Flavor

def openQuote : Flavor → Char
  | .sqlite | .postgreSql | .oracle => '"'
  | .mySql => Char.ofNat 0x60
  | .msSql => '['

/-- The character that closes a quoted identifier, and is written twice inside one. -/
def closeQuote : Flavor → Char
  | .sqlite | .postgreSql | .oracle => '"'
  | .mySql => Char.ofNat 0x60
  | .msSql => ']'

/-- Text in which every closing quote is written twice. -/
def doubled (quote : Char) : List Char → List Char
  | [] => []
  | c :: rest => if c = quote then c :: c :: doubled quote rest else c :: doubled quote rest

def quote (flavor : Flavor) (identifier : List Char) : List Char :=
  flavor.openQuote :: (doubled flavor.closeQuote identifier ++ [flavor.closeQuote])

/-- The mark of the `n`-th parameter. -/
def placeholder (flavor : Flavor) (n : Nat) : List Char :=
  match flavor with
  | .sqlite | .mySql => ['?']
  | .postgreSql => '$' :: Decimal.ofNat n
  | .msSql => '@' :: 'p' :: Decimal.ofNat n
  | .oracle => ':' :: Decimal.ofNat n

/-- What cuts a result to a page, after the order of a sorted one. A limit of 0 is none; where
neither the offset nor the limit cuts anything, nothing is written. -/
def paging (flavor : Flavor) (offset limit : Nat) (sorted : Bool) : String :=
  let offsetText := toString offset
  let limitText := toString limit
  if offset = 0 ∧ limit = 0 then ""
  else match flavor with
    | .sqlite =>
        if limit = 0 then " LIMIT -1 OFFSET " ++ offsetText
        else " LIMIT " ++ limitText ++ " OFFSET " ++ offsetText
    | .mySql =>
        if limit = 0 then " LIMIT " ++ offsetText ++ ", 18446744073709551615"
        else " LIMIT " ++ limitText ++ " OFFSET " ++ offsetText
    | .postgreSql =>
        if limit = 0 then " OFFSET " ++ offsetText
        else " LIMIT " ++ limitText ++ " OFFSET " ++ offsetText
    | .msSql | .oracle =>
        (if flavor = .msSql ∧ !sorted then " ORDER BY (SELECT NULL)" else "") ++
          " OFFSET " ++ offsetText ++ " ROWS" ++
          (if limit = 0 then "" else " FETCH NEXT " ++ limitText ++ " ROWS ONLY")

end Flavor

end DataAccess.Sql
