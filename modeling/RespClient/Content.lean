import RespClient.FieldMap
import RespClient.Key

/-!
# The content of a key

What a key holds, read from the reply that fetched it. Replies of collections
are flat: fields and values in turn, members, or elements. A nil or empty reply
is an empty collection.
-/

namespace RespClient

inductive Content where
  /-- The key holds nothing. -/
  | nil
  | string (data : Bytes)
  | hash (fields : FieldMap)
  | list (elements : List Bytes)
  | set (members : FieldMap)
  | zset (scores : FieldMap)

namespace Content

/-- The elements of a flat reply, in order. -/
def elements (reply : Reply) : Except Failure (List Bytes) := do
  (← reply.flatItems).mapM Reply.asBytes

/-- The content that a reply stands for under a key of the given type. -/
def ofReply (type : KeyType) (reply : Reply) : Except Failure Content :=
  match type with
  | .hash => (FieldMap.ofPairs reply).map hash
  | .zset => (FieldMap.ofPairs reply).map zset
  | .set => (FieldMap.ofMembers reply).map set
  | .list => (elements reply).map list
  | .string | .none =>
      match reply with
      | .null => .ok nil
      | reply => reply.asBytes.map string

end Content

end RespClient
