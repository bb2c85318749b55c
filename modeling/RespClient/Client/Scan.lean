import RespClient.Client.Basic
import RespClient.FieldMap
import RespClient.Key

/-!
# Walking large values

A value that is too large for one reply is walked page by page. The server
hands out a cursor with each page and is asked for the next page with it; the
walk ends at cursor 0 and nowhere else. A server may go on forever, so a walk
is given a number of rounds, and is unfinished when they are used up.
-/

namespace RespClient

/-- The state of a walk: the cursor to ask with next, and the entries so far. -/
structure Walk where
  cursor : UInt64 := 0
  entries : FieldMap := ∅

namespace Walk

/-- The cursor and the items of a page. The shape of the page and its cursor
are judged before the items. -/
def readPage (command : String) (reply : Reply) : Except Failure (UInt64 × List Reply) :=
  match reply with
  | .array [cursor, items] =>
      match cursor.asText.toOption.bind fun text => (Decimal.readUInt64 text.toList).toOption with
      | none => .error (.unexpected (command ++ " returned " ++ cursor.describe))
      | some next =>
          match items with
          | .array items => .ok (next, items)
          | items =>
              .error (.invariant (command ++ " item set is not a list: " ++ items.describe))
  | reply => .error (.unexpected (command ++ " returned " ++ reply.describe))

/-- Insert the items of a page: members of a set, pairs of any other type. -/
def addItems (type : KeyType) (items : List Reply) : Act FieldMap Unit :=
  match type with
  | .set => FieldMap.addMembers items
  | _ => FieldMap.addPairs items

/-- Take in one page. -/
def absorb (type : KeyType) (command : String) (walk : Walk) (reply : Reply) :
    Except Failure Walk := do
  let (next, items) ← readPage command reply
  match addItems type items walk.entries with
  | .ok _ entries => .ok { cursor := next, entries }
  | .error e _ =>
      .error (.invariant (command ++ " items not decodable: " ++ e.message))

end Walk

namespace Client

variable {σ : Type} [Network σ]

/-- The request for the page at a cursor. -/
def pageRequest (command : String) (key : Bytes) (cursor : UInt64) (count : Nat) : Request :=
  { command
    args := [.bulk key, .ofText (Decimal.text cursor.toNat), .ofText "count",
      .ofText (Decimal.text count)] }

/-- Ask for pages until cursor 0, at most `rounds` times; `none` if the walk is
unfinished then. -/
def walk (client : Client) (command : String) (key : Key) (count : Nat) :
    (rounds : Nat) → Walk → Act (Session σ) (Option FieldMap)
  | 0, _ => pure none
  | rounds + 1, state => do
      let reply ← client.execute (pageRequest command key.bytes state.cursor count)
      let state ← Act.ofExcept (state.absorb key.type command reply)
      if state.cursor = 0 then pure (some state.entries)
      else client.walk command key count rounds state

/-- The whole value of a hash, a set or a sorted set, asked for in pages of
about `count` items; `none` if `rounds` pages do not reach its end. Other types
cannot be walked. -/
def scan (client : Client) (key : Key) (count rounds : Nat) :
    Act (Session σ) (Option FieldMap) :=
  match key.type.scanCommand? with
  | none => throw (.conversion ("cannot scan a key of type " ++ key.type.name))
  | some command => client.walk command key count rounds {}

end Client

end RespClient
