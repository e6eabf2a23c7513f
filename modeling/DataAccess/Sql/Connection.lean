import DataAccess.Program

namespace DataAccess.Sql

inductive Call
  | query (sql : String) (parameters : List Value)
  | execute (sql : String) (parameters : List Value)
deriving DecidableEq

def Call.Answer : Call → Type
  | .query _ _ => Cursor Record
  | .execute _ _ => Nat

def interface : Interface where
  Call := Call
  Answer := Call.Answer

def query (context : Context) (sql : String) (parameters : List Value) :
    Program interface (Except StoreError (Cursor Record)) :=
  .call context (.query sql parameters) .done

def execute (context : Context) (sql : String) (parameters : List Value) :
    Program interface (Except StoreError Nat) :=
  .call context (.execute sql parameters) .done

end DataAccess.Sql
