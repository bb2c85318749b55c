import RespClient.Proofs.Wire.Codec
import RespClient.Wire.Request

/-!
# What a request sends

A request travels as an array of bulk strings, its command first, whatever bytes its
arguments hold. So requests behind each other are read back one by one, and nothing is
left over.
-/

namespace RespClient

/-- Whether a value has a place in a request: bulk strings, simple texts and numbers do. -/
def Reply.isArgument : Reply → Bool
  | .bulk _ | .simple _ | .integer _ => true
  | .error _ | .null | .array _ => false

namespace Request

open Wire

/-- The bytes of an argument: its own, those of its text, or those of its decimal text. -/
def argumentBytes : Reply → Bytes
  | .bulk data => data
  | .simple text => Utf8.encode text
  | .integer n => Utf8.encode (Decimal.text n.toInt)
  | .error _ | .null | .array _ => []

/-- The array of bulk strings that a request travels as. -/
def spelled (request : Request) : Reply :=
  .array ((Utf8.encode request.command :: request.args.map argumentBytes).map .bulk)

theorem decimal_eq_encode (n : Int) : decimal n = Utf8.encode (Decimal.text n) :=
  (Utf8.encode_ofList_ascii fun _ hc =>
    (Decimal.toNat_lt_of_spells (Decimal.spells_chars n) hc).2).symm

theorem argument?_of_isArgument {arg : Reply} (h : arg.isArgument) :
    argument? arg = some (argumentBytes arg) := by
  cases arg with
  | bulk | simple => rfl
  | integer n => exact congrArg some (decimal_eq_encode n.toInt)
  | error | null | array => cases h

theorem appendArgs_eq {args : List Reply} (h : ∀ arg ∈ args, arg.isArgument) (buffer : Bytes) :
    appendArgs args buffer =
      .ok () (buffer ++ Reply.encodeItems ((args.map argumentBytes).map .bulk)) := by
  induction args generalizing buffer with
  | nil => rw [appendArgs, List.map_nil, List.map_nil, Reply.encodeItems, List.append_nil]
  | cons arg args ih =>
      have harg := argument?_of_isArgument (h arg List.mem_cons_self)
      rw [appendArgs, harg]
      dsimp only
      rw [ih (fun a ha => h a (List.mem_cons_of_mem arg ha)), List.append_assoc]
      rfl

/-- A request whose arguments all have a place in it is appended as its array. -/
theorem append_eq_spelled {request : Request} (h : ∀ arg ∈ request.args, arg.isArgument)
    (before : Bytes) : request.append before = .ok () (before ++ request.spelled.encode) := by
  have hlength : (1 + request.args.length : Int) =
      ((Utf8.encode request.command :: request.args.map argumentBytes).map Reply.bulk).length := by
    simp only [List.length_map, List.length_cons]
    omega
  rw [append, appendArgs_eq h, spelled, Reply.encode, hlength, List.map_cons, Reply.encodeItems,
    Reply.encode]
  simp only [List.append_assoc]

theorem encode_eq_spelled {request : Request} (h : ∀ arg ∈ request.args, arg.isArgument) :
    request.encode = .ok request.spelled.encode := by
  rw [encode, append_eq_spelled h]
  rfl

theorem wireSafe_spelled (request : Request) : request.spelled.WireSafe := by
  rw [spelled, Reply.WireSafe]
  exact Reply.allWireSafe_bulk _

/-- Requests in a row are read back as their arrays, with nothing left over. -/
theorem items_spelled {requests : List Request} (h : ∀ r ∈ requests, r.spelled.Fits) :
    items decode requests.length [] (Reply.encodeItems (requests.map spelled)) =
      .item (requests.map spelled) [] := by
  have hread := items_encodeItems (requests.map spelled) ?_ ?_ [] []
  · rw [List.length_map, List.append_nil] at hread
    exact hread
  · clear h
    induction requests with
    | nil => trivial
    | cons request requests ih => exact ⟨wireSafe_spelled request, ih⟩
  · induction requests with
    | nil => trivial
    | cons request requests ih =>
        refine ⟨h request List.mem_cons_self, ih ?_⟩
        exact fun r hr => h r (List.mem_cons_of_mem request hr)

end Request

end RespClient
