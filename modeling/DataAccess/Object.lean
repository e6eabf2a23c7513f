import DataAccess.Coercion
import DataAccess.Json.Printer
import DataAccess.Json.Reader
import DataAccess.Object.Timestamp
import DataAccess.Path.Assign

/-!
# Business objects

A business object is a bag of attributes addressed by paths. Its root is null until the first write,
whose path decides whether it becomes a map or a sequence. A write that is refused reports the
object it leaves behind, as do the operations that replace the content.
-/

namespace DataAccess

structure BusinessObject where
  root : Value := .null
deriving DecidableEq

namespace BusinessObject

/-- Reads the attribute at a path, converted where a type is asked for. Nothing is found where the
attribute is missing or null. -/
def get (object : BusinessObject) (path : String) (target : Option Target := none) :
    Except ObjectError (Option Value) := do
  let steps ← Path.parse path
  if .append ∈ steps then .error (.malformedPath path .appendInRead)
  else match Path.lookup object.root steps with
    | none => return none
    | some .null => return none
    | some value =>
        match target with
        | none => return some value
        | some target => some <$> Coercion.coerce value target

/-- Writes an attribute, creating the containers on the way. -/
def set (object : BusinessObject) (path : String) (value : Value) :
    Except ObjectError Unit × BusinessObject :=
  let (result, root) := Path.set object.root path value
  (result, { root })

/-- Reads a text attribute as a point of time. -/
def time (object : BusinessObject) (path layout : String) :
    Except ObjectError (Option Timestamp) := do
  match ← object.get path with
  | none => return none
  | some (.string text) =>
      match Timestamp.read? text layout with
      | some time => return some time
      | none => .error (.time text layout)
  | some value => .error (.coercion value.kind "time" .stringExpected)

def toJson (object : BusinessObject) : String := object.root.toJson

/-- An object with the content that a JSON text gives. -/
def parse (bytes : ByteArray) : Except ObjectError BusinessObject :=
  match Value.ofJsonBytes? bytes with
  | some root => .ok { root }
  | none => .error .json

/-- Replaces the content by that of a JSON text, or keeps it where the text is none. -/
def fromJson (object : BusinessObject) (bytes : ByteArray) :
    Except ObjectError Unit × BusinessObject :=
  match parse bytes with
  | .ok read => (.ok (), read)
  | .error error => (.error error, object)

def transferTo {α : Type} (decode : Value → Option α) (object : BusinessObject) :
    Except ObjectError α :=
  match decode object.root with
  | some result => .ok result
  | none => .error .json

/-- The content as a map; an absent root is an empty one. -/
def toMap (object : BusinessObject) : Except ObjectError Record :=
  match object.root with
  | .map fields => .ok fields
  | .null => .ok []
  | other => .error (.notAMap other.kind)

/-- An absent root or an empty container. -/
def isEmpty (object : BusinessObject) : Bool :=
  match object.root with
  | .null => true
  | .map fields => fields.isEmpty
  | .sequence items => items.isEmpty
  | _ => false

/-- Equality of content, whatever the order of keys. -/
def same (left right : BusinessObject) : Bool := left.root.same right.root

/-- Where an element of the root stands. -/
inductive Position
  | field (name : String)
  | index (position : Nat)

/-- The elements of a map or sequence at the root, in order. -/
def elements (object : BusinessObject) : List (Position × Value) :=
  match object.root with
  | .map fields => fields.map fun (name, value) => (.field name, value)
  | .sequence items => items.zipIdx.map fun (value, position) => (.index position, value)
  | _ => []

/-- The path that a copy of an element is written to: a field of a new name, or the end of the
sequence. -/
def Position.copyPath : Position → String
  | .field name => "copy_" ++ name
  | .index _ => "[]"

def describe (object : BusinessObject) : String :=
  "GenericBo(" ++ String.ofList (Text.describe object.root) ++ ")"

end BusinessObject

end DataAccess
