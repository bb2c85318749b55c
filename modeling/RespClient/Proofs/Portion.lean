import RespClient.Client.Scan
import RespClient.Proofs.FieldMap
import RespClient.Proofs.LastEntry
import RespClient.Proofs.Text.Decimal
import RespClient.Proofs.Text.Utf8

/-!
# What a walk makes of a reply

A reply to a walk is a portion of the value, which moves the walk on, or it is refused. There
is nothing else it can be, and it cannot be both; and how it is refused says what is wrong with
it: the server's own refusal first, then the shape of the reply and its cursor, then its items.
-/

namespace RespClient

open FieldMap

/-! ## Replies -/

namespace Reply

theorem asText_eq_ok_iff {reply : Reply} {text : String} :
    reply.asText = .ok text ↔ reply.payload? = some (Utf8.encode text) := by
  cases reply with
  | simple shown =>
      rw [asText, payload?, Option.some.injEq, Except.ok.injEq]
      constructor
      · rintro rfl
        rfl
      · intro h
        have hdecode := congrArg Utf8.decode h
        rw [Utf8.decode_encode, Utf8.decode_encode] at hdecode
        exact Except.ok.inj hdecode
  | bulk data =>
      rw [asText, payload?, Option.some.injEq, ← Utf8.decode_eq_ok_iff]
      cases Utf8.decode data <;> simp
  | error | integer | null | array => simp [asText, payload?]

theorem toOption_eq_some_iff {ε α : Type} {outcome : Except ε α} {a : α} :
    outcome.toOption = some a ↔ outcome = .ok a := by
  cases outcome <;> simp [Except.toOption]

/-- A simple or bulk string shows a cursor: its bytes are the text of a number of 64 bits. -/
def ShowsCursor (reply : Reply) (cursor : UInt64) : Prop :=
  ∃ digits, reply.payload? = some (Utf8.encode (String.ofList digits)) ∧
    Decimal.SpellsNat digits cursor.toNat

theorem asCursor_eq_some_iff {reply : Reply} {cursor : UInt64} :
    (reply.asText.toOption.bind fun text => (Decimal.readUInt64 text.toList).toOption) =
      some cursor ↔ reply.ShowsCursor cursor := by
  rw [Option.bind_eq_some_iff]
  constructor
  · rintro ⟨text, htext, hcursor⟩
    refine ⟨text.toList, ?_, Decimal.readUInt64_eq_ok_iff.mp (toOption_eq_some_iff.mp hcursor)⟩
    rw [String.ofList_toList]
    exact asText_eq_ok_iff.mp (toOption_eq_some_iff.mp htext)
  · rintro ⟨digits, hdigits, hspells⟩
    refine ⟨String.ofList digits, ?_, ?_⟩
    · exact toOption_eq_some_iff.mpr (asText_eq_ok_iff.mpr hdigits)
    · rw [String.toList_ofList]
      exact toOption_eq_some_iff.mpr (Decimal.readUInt64_eq_ok_iff.mpr hspells)

end Reply

/-! ## Portions -/

/-- A portion of a value: a cursor and the items that list some entries, which have no payload
in a set, and one in any other type. -/
structure Portion (type : KeyType) where
  head : Reply
  next : UInt64
  shown : head.ShowsCursor next
  items : List Reply
  entries : List Entry
  listed : Lists items entries
  suited : ∀ entry ∈ entries, entry.2 = none ↔ type = .set

/-- What the server sends for a portion. -/
def Portion.reply {type : KeyType} (portion : Portion type) : Reply :=
  .array [portion.head, .array portion.items]

/-- A map of what some portions list: under each field the payload of the last entry, which is
none in a set and one in any other type. -/
structure Collected {type : KeyType} (portions : List (Portion type)) (found : FieldMap) :
    Prop where
  last : ∀ (field : Bytes) (payload : Option Bytes), found[field]? = some payload ↔
    LastUnder (portions.flatMap Portion.entries) field payload
  suited : ∀ (field : Bytes) (payload : Option Bytes), found[field]? = some payload →
    (payload = none ↔ type = .set)

/-- A walk refuses a reply. -/
inductive Refused (type : KeyType) (command : String) : Reply → Failure → Prop
  /-- An error reply is the server's own refusal. -/
  | server (text : String) : Refused type command (.error text) (.server text)
  /-- The reply is no array of two. -/
  | shape {reply : Reply} (herror : ∀ text, reply ≠ .error text)
      (hshape : ∀ head body, reply ≠ .array [head, body]) :
      Refused type command reply (.unexpected (command ++ " returned " ++ reply.describe))
  /-- The first of the two is no cursor, whatever the second is. -/
  | cursor {head : Reply} (body : Reply) (hhead : ∀ next, ¬ head.ShowsCursor next) :
      Refused type command (.array [head, body])
        (.unexpected (command ++ " returned " ++ head.describe))
  /-- The second is no list of items. -/
  | body {head body : Reply} {next : UInt64} (hhead : head.ShowsCursor next)
      (hbody : ∀ items, body ≠ .array items) :
      Refused type command (.array [head, body])
        (.invariant (command ++ " item set is not a list: " ++ body.describe))
  /-- A field has no value. -/
  | odd {head : Reply} {next : UInt64} {items : List Reply} (hhead : head.ShowsCursor next)
      (htype : type ≠ .set) (hodd : items.length % 2 = 1) :
      Refused type command (.array [head, .array items])
        (.invariant (command ++ " items not decodable: " ++ Failure.message (.conversion
          ("expected field/value pairs, got " ++ Decimal.text items.length ++ " items"))))
  /-- An item is no string. -/
  | item {head : Reply} {next : UInt64} {before after : List Reply} {item : Reply}
      (hhead : head.ShowsCursor next)
      (heven : type = .set ∨ (before ++ item :: after).length % 2 = 0)
      (hbefore : ∀ i ∈ before, i.payload? ≠ none) (hitem : item.payload? = none) :
      Refused type command (.array [head, .array (before ++ item :: after)])
        (.invariant (command ++ " items not decodable: " ++
          (item.cannotConvert "bytes").message))

namespace Walk

variable {type : KeyType} {command : String} {reply : Reply} {e : Failure}

/-- The walk after a portion. -/
def past (walk : Walk) (portion : Portion type) : Walk where
  cursor := portion.next
  entries := walk.entries.insertMany portion.entries

theorem entries_foldl_past (portions : List (Portion type)) (walk : Walk) :
    (portions.foldl past walk).entries =
      walk.entries.insertMany (portions.flatMap Portion.entries) := by
  induction portions generalizing walk with
  | nil => rw [List.flatMap_nil, Std.ExtTreeMap.insertMany_nil, List.foldl_nil]
  | cons portion portions ih =>
      rw [List.foldl_cons, ih, List.flatMap_cons, Std.ExtTreeMap.insertMany_append]
      rfl

/-- A walk over some portions from the start has found their last entries. -/
theorem collected_foldl_past (portions : List (Portion type)) :
    Collected portions (portions.foldl past {}).entries := by
  have hlast : ∀ (field : Bytes) (payload : Option Bytes),
      (portions.foldl past {}).entries[field]? = some payload ↔
        LastUnder (portions.flatMap Portion.entries) field payload := by
    intro field payload
    rw [entries_foldl_past]
    exact getElem?_insertMany_empty_iff
  refine ⟨hlast, fun field payload hfound => ?_⟩
  obtain ⟨earlier, entry, later, hentries, rfl, -⟩ := (hlast field payload).mp hfound
  have hmem : (field, payload) ∈ portions.flatMap Portion.entries := by
    rw [hentries]
    exact List.mem_append_right _ List.mem_cons_self
  obtain ⟨portion, -, hlisted⟩ := List.mem_flatMap.mp hmem
  exact portion.suited _ hlisted

/-- What a walk makes of a reply. -/
def judge (type : KeyType) (command : String) (walk : Walk) (reply : Reply) :
    Except Failure Walk := do
  walk.absorb type command (← reply.answer)

theorem addItems_of_ne_set (h : type ≠ .set) (items : List Reply) :
    addItems type items = addPairs items := by
  cases type <;> first | rfl | exact absurd rfl h

theorem addItems_portion (portion : Portion type) (map : FieldMap) :
    addItems type portion.items map = .ok () (map.insertMany portion.entries) := by
  by_cases htype : type = .set
  · subst htype
    exact addMembers_of_lists portion.listed (fun e he => (portion.suited e he).mpr rfl) map
  · rw [addItems_of_ne_set htype]
    exact addPairs_of_lists portion.listed (fun e he => mt (portion.suited e he).mp htype) map

theorem readPage_of_showsCursor {head body : Reply} {next : UInt64}
    (h : head.ShowsCursor next) :
    readPage command (.array [head, body]) =
      match body with
      | .array items => .ok (next, items)
      | items =>
          .error (.invariant (command ++ " item set is not a list: " ++ items.describe)) := by
  cases body <;> simp only [readPage, Reply.asCursor_eq_some_iff.mpr h]

theorem judge_portion (walk : Walk) (portion : Portion type) :
    walk.judge type command portion.reply = .ok (walk.past portion) := by
  have hpage : readPage command portion.reply = .ok (portion.next, portion.items) :=
    readPage_of_showsCursor portion.shown
  change walk.absorb type command portion.reply = .ok (walk.past portion)
  simp only [absorb, hpage, addItems_portion, bind, Except.bind, past]

theorem judge_of_readPage_error (hanswer : reply.answer = .ok reply)
    (hpage : readPage command reply = .error e) (walk : Walk) :
    walk.judge type command reply = .error e := by
  simp only [judge, hanswer, absorb, hpage, bind, Except.bind]

theorem judge_of_addItems_error {head : Reply} {next : UInt64} {items : List Reply}
    {stopped : FieldMap} {walk : Walk} (hhead : head.ShowsCursor next)
    (hitems : addItems type items walk.entries = .error e stopped) :
    walk.judge type command (.array [head, .array items]) =
      .error (.invariant (command ++ " items not decodable: " ++ e.message)) := by
  have hanswer : Reply.answer (.array [head, .array items]) = .ok (.array [head, .array items]) :=
    rfl
  simp only [judge, hanswer, absorb, readPage_of_showsCursor hhead, hitems, bind, Except.bind]

theorem judge_of_refused (h : Refused type command reply e) (walk : Walk) :
    walk.judge type command reply = .error e := by
  cases h with
  | server text => rfl
  | shape herror hshape =>
      apply judge_of_readPage_error
      · exact Reply.answer_eq_ok_iff.mpr ⟨rfl, herror⟩
      · rw [readPage]
        exact fun head body h => hshape head body h
  | cursor body hhead =>
      apply judge_of_readPage_error rfl
      rw [readPage, Option.eq_none_iff_forall_ne_some.mpr fun next h =>
        hhead next (Reply.asCursor_eq_some_iff.mp h)]
  | body hhead hbody =>
      apply judge_of_readPage_error rfl
      rw [readPage_of_showsCursor hhead]
      split
      · next items => exact absurd rfl (hbody items)
      · rfl
  | odd hhead htype hodd =>
      exact judge_of_addItems_error hhead
        ((congrFun (addItems_of_ne_set htype _) walk.entries).trans (if_pos hodd))
  | item hhead heven hbefore hitem =>
      -- members stop at the item itself, pairs at the pair that it is one half of
      by_cases htype : type = .set
      · subst htype
        obtain ⟨entries, hlists, hnone⟩ := exists_lists_members hbefore
        exact judge_of_addItems_error hhead
          (addMembers_of_stop hlists hnone hitem walk.entries)
      · obtain ⟨stopped, hstopped⟩ := exists_addPairs_of_stop hbefore hitem
          (heven.resolve_left htype) walk.entries
        rw [← addItems_of_ne_set htype] at hstopped
        exact judge_of_addItems_error hhead hstopped

theorem exists_lists_suited {items : List Reply} (heven : type = .set ∨ items.length % 2 = 0)
    (hitems : ∀ item ∈ items, item.payload? ≠ none) :
    ∃ entries, Lists items entries ∧ ∀ entry ∈ entries, entry.2 = none ↔ type = .set := by
  by_cases htype : type = .set
  · obtain ⟨entries, hlists, hnone⟩ := exists_lists_members hitems
    exact ⟨entries, hlists, fun entry he => iff_of_true (hnone entry he) htype⟩
  · obtain ⟨entries, hlists, hsome⟩ := exists_lists_pairs hitems (heven.resolve_left htype)
    exact ⟨entries, hlists, fun entry he => iff_of_false (hsome entry he) htype⟩

/-- A reply is a portion, or it is refused. -/
theorem exists_portion_or_refused (type : KeyType) (command : String) (reply : Reply) :
    (∃ portion : Portion type, portion.reply = reply) ∨ ∃ e, Refused type command reply e := by
  -- in the order in which a walk looks at the parts of a reply
  by_cases herror : ∃ text, reply = .error text
  · obtain ⟨text, rfl⟩ := herror
    exact .inr ⟨_, .server text⟩
  by_cases hshape : ∃ head body, reply = .array [head, body]
  case neg =>
    exact .inr ⟨_, .shape (not_exists.mp herror) fun head body h => hshape ⟨head, body, h⟩⟩
  obtain ⟨head, body, rfl⟩ := hshape
  by_cases hhead : ∃ next, head.ShowsCursor next
  case neg => exact .inr ⟨_, .cursor body (not_exists.mp hhead)⟩
  obtain ⟨next, hnext⟩ := hhead
  by_cases hbody : ∃ items, body = .array items
  case neg => exact .inr ⟨_, .body hnext (not_exists.mp hbody)⟩
  obtain ⟨items, rfl⟩ := hbody
  by_cases heven : type = .set ∨ items.length % 2 = 0
  case neg =>
    obtain ⟨htype, hodd⟩ := not_or.mp heven
    exact .inr ⟨_, .odd hnext htype (Nat.mod_two_ne_zero.mp hodd)⟩
  rcases forall_payload_or items with hitems | ⟨before, item, after, rfl, hbefore, hitem⟩
  · obtain ⟨entries, hlists, hsuited⟩ := exists_lists_suited heven hitems
    exact .inl ⟨⟨head, next, hnext, items, entries, hlists, hsuited⟩, rfl⟩
  · exact .inr ⟨_, .item hnext heven hbefore hitem⟩

theorem judge_eq_error_iff {walk : Walk} :
    walk.judge type command reply = .error e ↔ Refused type command reply e := by
  constructor
  · intro h
    rcases exists_portion_or_refused type command reply with ⟨portion, rfl⟩ | ⟨e', hrefused⟩
    · rw [judge_portion] at h
      cases h
    · rw [judge_of_refused hrefused] at h
      cases h
      exact hrefused
  · exact fun h => judge_of_refused h walk

end Walk

end RespClient
