import RespClient.Failure
import RespClient.Reply

/-!
# Keys and their types

A key comes with the type that its owner believes it has. The type decides
which commands measure, fetch and walk the value.
-/

namespace RespClient

inductive KeyType where
  | string
  | hash
  | list
  | set
  | zset
  /-- No value is stored under the key. -/
  | none
  deriving DecidableEq, Repr

namespace KeyType

/-- The name that the server gives the type. -/
def name : KeyType → String
  | string => "string"
  | hash => "hash"
  | list => "list"
  | set => "set"
  | zset => "zset"
  | none => "none"

def all : List KeyType := [string, hash, list, set, zset, none]

/-- The type that a server's name stands for. -/
def ofName (text : String) : Except Failure KeyType :=
  match all.find? (·.name = text) with
  | some type => .ok type
  | Option.none => .error (.unexpected ("unknown key type: " ++ text))

/-- The command that counts the items of a value, or the bytes of a string. -/
def lengthCommand : KeyType → String
  | string | none => "strlen"
  | hash => "hlen"
  | list => "llen"
  | set => "scard"
  | zset => "zcard"

/-- The command that fetches a whole value, and what follows the key in it. -/
def fetchCommand : KeyType → String × List Reply
  | string | none => ("get", [])
  | hash => ("hgetall", [])
  | list => ("lrange", [.integer 0, .integer (-1)])
  | set => ("smembers", [])
  | zset => ("zrange", [.integer 0, .integer (-1), .ofText "WITHSCORES"])

/-- The command that walks a value page by page, for the types that have one. -/
def scanCommand? : KeyType → Option String
  | hash => some "hscan"
  | set => some "sscan"
  | zset => some "zscan"
  | string | list | none => Option.none

theorem ofName_name (type : KeyType) : ofName type.name = .ok type := by
  cases type <;> rfl

end KeyType

structure Key where
  bytes : Bytes
  type : KeyType
  deriving DecidableEq, Repr

end RespClient
