import RespClient.Reply.Convert
import Std.Data.ExtTreeMap.Lemmas

/-!
# Field maps

The content of a hash, a sorted set or a set: fields in byte order, each with
the value or score that belongs to it, and members with nothing. Maps are equal
when they hold the same entries, however they were filled.

Two actions fill a map from the items of a reply. Each inserts from left to
right and keeps what it has inserted when an item stops it.
-/

namespace RespClient

abbrev FieldMap := Std.ExtTreeMap Bytes (Option Bytes)

namespace FieldMap

/-- Insert one member. -/
def addMember (member : Reply) : Act FieldMap Unit := fun map =>
  match member.asBytes with
  | .error e => .error e map
  | .ok member => .ok () (map.insert member none)

/-- Insert one field with its value. The field is looked at first. -/
def addPair (field value : Reply) : Act FieldMap Unit := fun map =>
  match field.asBytes with
  | .error e => .error e map
  | .ok field =>
      match value.asBytes with
      | .error e => .error e map
      | .ok value => .ok () (map.insert field (some value))

/-- Insert members up to the first item that is none. -/
def addMembers : List Reply → Act FieldMap Unit
  | [] => pure ()
  | member :: items => do
      addMember member
      addMembers items

/-- Insert fields and values in turn, up to the first item that is neither. -/
def addAlternating : List Reply → Act FieldMap Unit
  | field :: value :: items => do
      addPair field value
      addAlternating items
  | _ => pure ()

/-- Insert fields and values in turn; an odd number of items is refused before
anything is inserted. -/
def addPairs (items : List Reply) : Act FieldMap Unit := fun map =>
  if items.length % 2 = 1 then
    .error (.conversion ("expected field/value pairs, got " ++ Decimal.text items.length ++ " items"))
      map
  else addAlternating items map

/-- The map that an action makes of the empty one. -/
def build (act : Act FieldMap Unit) : Except Failure FieldMap :=
  match act ∅ with
  | .ok _ map => .ok map
  | .error e _ => .error e

/-- The map of a flat reply of fields and values. -/
def ofPairs (reply : Reply) : Except Failure FieldMap := do
  build (addPairs (← reply.flatItems))

/-- The map of a flat reply of members. -/
def ofMembers (reply : Reply) : Except Failure FieldMap := do
  build (addMembers (← reply.flatItems))

example : (build (addPairs [.ofText "b", .ofText "1", .ofText "a", .ofText "2", .ofText "b",
    .ofText "3"])).map (·.toList) =
    .ok [([97], some [50]), ([98], some [51])] := by rfl

end FieldMap

end RespClient
