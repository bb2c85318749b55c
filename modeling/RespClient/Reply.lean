import RespClient.Text.Decimal
import RespClient.Text.Quoted
import RespClient.Text.Utf8

/-!
# Reply values

The six kinds of reply that a server can send. A bulk reply holds any bytes, a
simple or an error reply holds text, and arrays nest.
-/

namespace RespClient

inductive Reply where
  | simple (text : String)
  | error (text : String)
  | integer (n : Int64)
  | bulk (data : Bytes)
  /-- The nil bulk string and the nil array, which are one value. -/
  | null
  | array (items : List Reply)
  deriving Inhabited, Repr

namespace Reply

mutual

/-- Equality of replies is decidable, item by item. -/
def decEq : (a b : Reply) → Decidable (a = b)
  | .simple s, .simple t => decidable_of_iff (s = t) (by simp)
  | .error s, .error t => decidable_of_iff (s = t) (by simp)
  | .integer m, .integer n => decidable_of_iff (m = n) (by simp)
  | .bulk c, .bulk d => decidable_of_iff (c = d) (by simp)
  | .null, .null => .isTrue rfl
  | .array xs, .array ys =>
      match decEqList xs ys with
      | .isTrue h => .isTrue (by rw [h])
      | .isFalse h => .isFalse (by simpa using h)
  | .simple _, .error _ | .simple _, .integer _ | .simple _, .bulk _ | .simple _, .null
  | .simple _, .array _ | .error _, .simple _ | .error _, .integer _ | .error _, .bulk _
  | .error _, .null | .error _, .array _ | .integer _, .simple _ | .integer _, .error _
  | .integer _, .bulk _ | .integer _, .null | .integer _, .array _ | .bulk _, .simple _
  | .bulk _, .error _ | .bulk _, .integer _ | .bulk _, .null | .bulk _, .array _
  | .null, .simple _ | .null, .error _ | .null, .integer _ | .null, .bulk _ | .null, .array _
  | .array _, .simple _ | .array _, .error _ | .array _, .integer _ | .array _, .bulk _
  | .array _, .null => .isFalse (by simp)

def decEqList : (xs ys : List Reply) → Decidable (xs = ys)
  | [], [] => .isTrue rfl
  | [], _ :: _ | _ :: _, [] => .isFalse (by simp)
  | x :: xs, y :: ys =>
      match decEq x y, decEqList xs ys with
      | .isTrue hx, .isTrue hxs => .isTrue (by rw [hx, hxs])
      | .isFalse hx, _ => .isFalse (by simp [hx])
      | _, .isFalse hxs => .isFalse (by simp [hxs])

end

instance : DecidableEq Reply := decEq

/-- The bulk reply with the bytes of a text. -/
def ofText (text : String) : Reply :=
  .bulk (Utf8.encode text)

mutual

/-- A reply as messages show it. -/
def describe : Reply → String
  | .simple text => "SimpleString(" ++ Quoted.text text.toList ++ ")"
  | .error text => "Error(" ++ Quoted.text text.toList ++ ")"
  | .integer n => "Integer(" ++ Decimal.text n.toInt ++ ")"
  | .bulk data => "BulkString(" ++ Quoted.bytes data ++ ")"
  | .null => "Null"
  | .array items => "Array([" ++ String.intercalate ", " (describeItems items) ++ "])"

def describeItems : List Reply → List String
  | [] => []
  | item :: items => describe item :: describeItems items

end

end Reply

end RespClient
