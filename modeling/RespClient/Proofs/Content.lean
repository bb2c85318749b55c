import RespClient.Content
import RespClient.Proofs.FieldMap
import RespClient.Proofs.Wire.Codec

/-!
# Contents survive the wire

A server sends the content of a key as one flat reply, and a collection in whatever order it
keeps it. However the reply lists the content, what is read from its encoding is that
content, with the elements of a list in their order and as often as they occur.
-/

namespace RespClient

open FieldMap Wire

/-- The content of a key of the given type when it is the collection `m`. The fields of a
hash have values and the members of a sorted set have scores, but those of a set have
nothing. -/
inductive Collection : KeyType → FieldMap → Content → Prop where
  | hash {m : FieldMap} (h : ∀ entry, Holds m entry → entry.2 ≠ none) :
      Collection .hash m (.hash m)
  | zset {m : FieldMap} (h : ∀ entry, Holds m entry → entry.2 ≠ none) :
      Collection .zset m (.zset m)
  | set {m : FieldMap} (h : ∀ entry, Holds m entry → entry.2 = none) :
      Collection .set m (.set m)

/-- A reply that lists the whole collection is read as its content. -/
theorem Collection.ofReply {type : KeyType} {m : FieldMap} {content : Content}
    {items : List Reply} {entries : List Entry} (h : Collection type m content)
    (hlists : Lists items entries) (hentries : ∀ entry, entry ∈ entries ↔ Holds m entry) :
    Content.ofReply type (.array items) = .ok content := by
  cases h with
  | hash hsome | zset hsome =>
      rw [Content.ofReply, ofPairs_of_lists hlists hentries hsome, Except.map]
  | set hnone => rw [Content.ofReply, ofMembers_of_lists hlists hentries hnone, Except.map]

/-! ## Replies in bulk strings -/

/-- Bulk strings that list some entries, one after the other. -/
def FieldMap.flat (entries : List Entry) : List Reply :=
  (entries.flatMap fun entry => entry.1 :: entry.2.toList).map .bulk

theorem FieldMap.lists_flat (entries : List Entry) : Lists (flat entries) entries := by
  rw [Lists, flat, List.map_map]
  rfl

namespace Content

theorem elements_bulk (data : List Bytes) : elements (.array (data.map .bulk)) = .ok data := by
  change (data.map Reply.bulk).mapM Reply.asBytes = .ok data
  rw [List.mapM_map]
  exact (List.mapM_pure (f := id)).trans (congrArg Except.ok (List.map_id data))

/-- The replies that a server may send for a content of a key of the given type. A
collection may be listed in any order of its entries. -/
inductive SentAs : KeyType → Content → Reply → Prop where
  | missing {type : KeyType} (h : type = .string ∨ type = .none) : SentAs type .nil .null
  | string {type : KeyType} (h : type = .string ∨ type = .none) (data : Bytes) :
      SentAs type (.string data) (.bulk data)
  | list (data : List Bytes) : SentAs .list (.list data) (.array (data.map .bulk))
  | collection {type : KeyType} {m : FieldMap} {content : Content} {entries : List Entry}
      (h : Collection type m content) (horder : entries.Perm m.toList) :
      SentAs type content (.array (flat entries))

namespace SentAs

variable {type : KeyType} {content : Content} {reply : Reply}

theorem ofReply (h : SentAs type content reply) : Content.ofReply type reply = .ok content := by
  cases h with
  | missing h | string h => rcases h with rfl | rfl <;> rfl
  | list data => rw [Content.ofReply, elements_bulk, Except.map]
  | collection h horder =>
      exact h.ofReply (lists_flat _) fun _ => horder.mem_iff.trans mem_toList_iff_holds

/-- Bulk strings hold any bytes, so there is no text in the reply that a line end could cut. -/
theorem wireSafe (h : SentAs type content reply) : reply.WireSafe := by
  cases h with
  | missing | string => trivial
  | list => exact Reply.allWireSafe_bulk _
  | collection => exact Reply.allWireSafe_bulk _

end SentAs

/-- Whatever reply a server sends for a content, and whatever stands before and behind it, what
is read from its encoding is that content. The lengths are signed numbers of 64 bits, as those
of all data in memory are. -/
theorem exists_decodeAt_ofReply {type : KeyType} {content : Content} {reply : Reply}
    (h : SentAs type content reply) (hfits : reply.Fits) (before rest : Bytes) :
    ∃ got, decodeAt (before ++ reply.encode ++ rest) before.length =
        .ok (some (got, before.length + reply.encode.length)) ∧
      Content.ofReply type got = .ok content :=
  ⟨reply, decodeAt_encode_of_wireSafe reply h.wireSafe hfits before rest, h.ofReply⟩

/-- Two fields, one of them without bytes and one whose value has none. -/
def binaryFields : FieldMap :=
  ((∅ : FieldMap).insert [] (some (ascii "$-1\r\n"))).insert crlf (some [])

/-- The reply that lists the greater field first. -/
def binaryBackwards : Reply :=
  .array [.bulk crlf, .bulk [], .bulk [], .bulk (ascii "$-1\r\n")]

theorem exists_decodeAt_ofReply_binaryBackwards :
    SentAs .hash (.hash binaryFields) binaryBackwards ∧ binaryBackwards.Fits ∧
      ∃ got, decodeAt ([36] ++ binaryBackwards.encode ++ [10]) 1 =
          .ok (some (got, 1 + binaryBackwards.encode.length)) ∧
        ofReply .hash got = .ok (.hash binaryFields) := by
  have hlist : binaryFields.toList = [([], some (ascii "$-1\r\n")), (crlf, some [])] := by rfl
  have hm : Collection .hash binaryFields (.hash binaryFields) := by
    refine .hash fun entry hentry => ?_
    rw [← mem_toList_iff_holds, hlist] at hentry
    simp only [List.mem_cons, List.not_mem_nil, or_false] at hentry
    rcases hentry with rfl | rfl <;> simp
  have hsent : SentAs .hash (.hash binaryFields) binaryBackwards := by
    have hreversed := SentAs.collection hm (List.reverse_perm binaryFields.toList)
    rw [hlist] at hreversed
    exact hreversed
  have hfits : binaryBackwards.Fits := by
    simp only [binaryBackwards, Reply.Fits, Reply.AllFit]
    decide
  exact ⟨hsent, hfits, exists_decodeAt_ofReply hsent hfits [36] [10]⟩

end Content

end RespClient
