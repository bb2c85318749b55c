import RespClient.Proofs.Act
import RespClient.Proofs.Wire.Grammar
import RespClient.Proofs.Wire.Machine

/-!
# The open arrays of a reader

Whatever comes, in whatever pieces and with whatever deadlines in between, the arrays that a
reader keeps open are those of the reply that it is in. The bytes taken out of the stream since
the last reply are the head of the outermost, the items it has, the head of the array that is its
next item, and so on to the innermost. So each array lacks an item, no operation of the reader is
one that a machine would be stopped at, and behind a reply no array is open.
-/

namespace RespClient

namespace Wire

/-- Bytes open some arrays, of which the innermost stands first: they are the head of the
outermost and the items it has, then as its next item the head of the array inside and the items
that one has, and so on. Each head announces the items that its array has and those it lacks, one
at least. -/
inductive Opens : Bytes → List OpenArray → Prop where
  | nil : Opens [] []
  | cons {before numeral word : Bytes} {length : Nat} {inner : OpenArray} {outer : List OpenArray}
      (houter : Opens before outer) (hnumeral : Numeral numeral length)
      (hword : DenoteEach word inner.seen.reverse)
      (hlength : inner.missing + inner.seen.length = length) (hmissing : 1 ≤ inner.missing) :
      Opens (before ++ (line 42 numeral ++ word)) (inner :: outer)

theorem Opens.missing {bytes : Bytes} {unfilled : List OpenArray} (h : Opens bytes unfilled) :
    ∀ entry ∈ unfilled, 1 ≤ entry.missing := by
  induction h with
  | nil => simp
  | cons _ _ _ _ hmissing ih => exact List.forall_mem_cons.mpr ⟨hmissing, ih⟩

theorem denoteEach_concat {later word : Bytes} {replies : List Reply} {reply : Reply}
    (h : DenoteEach later replies) (hword : Denotes word reply) :
    DenoteEach (later ++ word) (replies ++ [reply]) := by
  induction replies generalizing later with
  | nil =>
      cases h
      rw [List.nil_append, List.nil_append, ← List.append_nil word]
      exact .cons hword .nil
  | cons first replies ih =>
      cases h with
      | cons hfirst hlater =>
          rw [List.append_assoc, List.cons_append]
          exact .cons hfirst (ih hlater)

/-- A value goes into the innermost array. The arrays that it fills are items themselves. -/
theorem opens_attach {before word : Bytes} {unfilled : List OpenArray} {value : Reply}
    (h : Opens before unfilled) (hvalue : Denotes word value) :
    match Reader.attach value unfilled with
    | (some reply, outer) => outer = [] ∧ Denotes (before ++ word) reply
    | (none, outer) => Opens (before ++ word) outer := by
  induction h generalizing value word with
  | nil => exact ⟨rfl, hvalue⟩
  | @cons before numeral items length inner outer houter hnumeral hitems hlength hmissing ih =>
      have hseen : DenoteEach (items ++ word) (value :: inner.seen).reverse := by
        rw [List.reverse_cons]
        exact denoteEach_concat hitems hvalue
      rw [Reader.attach, List.append_assoc, List.append_assoc]
      by_cases hfull : inner.missing ≤ 1
      · -- the array that this fills goes into the one around it
        rw [if_pos hfull]
        refine ih (.array ?_ hseen)
        rwa [List.length_reverse, List.length_cons,
          show inner.seen.length + 1 = length by omega]
      · rw [if_neg hfull]
        refine .cons houter hnumeral hseen ?_ ?_
        · show inner.missing - 1 + (inner.seen.length + 1) = length
          omega
        · show 1 ≤ inner.missing - 1
          omega

/-- A move takes bytes from the buffer, which open the arrays or are the reply with those before
them. -/
theorem opens_move {taken : Bytes} {reader : Reader} (h : Opens taken reader.unfilled) :
    match reader.move with
    | .onward next =>
        ∃ word, reader.buffer = word ++ next.buffer ∧ Opens (taken ++ word) next.unfilled
    | .reply value next =>
        ∃ word, reader.buffer = word ++ next.buffer ∧ Denotes (taken ++ word) value
    | .starved | .malformed _ => True := by
  rw [Reader.move]
  cases hf : frame reader.buffer with
  | incomplete => trivial
  | malformed fault => trivial
  | item f rest =>
      obtain ⟨word, hbuffer, hframe⟩ := frameOf_of_frame hf
      cases hframe with
      | @arrayHead numeral length hnumeral =>
          refine ⟨line 42 numeral, hbuffer, ?_⟩
          rw [← List.append_nil (line 42 numeral)]
          exact .cons h hnumeral .nil (Nat.add_zero length) (pos_of_frame hf)
      | @value _ value hvalue =>
          have hattach := opens_attach h hvalue
          dsimp only
          generalize Reader.attach value reader.unfilled = attached at hattach ⊢
          rcases attached with ⟨_ | reply, outer⟩
          · exact ⟨word, hbuffer, hattach⟩
          · exact ⟨word, hbuffer, hattach.2⟩

namespace Inbox

/-- Of all the bytes that some deliveries bring, those that were taken are whole replies and then
the bytes that open the arrays of the reader. The others are in the buffer, or still to come. -/
def Stands (deliveries : List Delivery) (now : Inbox) : Prop :=
  ∃ done replies taken,
    stream deliveries = done ++ taken ++ (now.reader.buffer ++ stream now.coming) ∧
      DenoteEach done replies ∧ Opens taken now.reader.unfilled

theorem Stands.missing {deliveries : List Delivery} {now : Inbox} (h : now.Stands deliveries) :
    ∀ entry ∈ now.reader.unfilled, 1 ≤ entry.missing := by
  obtain ⟨_, _, _, -, -, hopens⟩ := h
  exact hopens.missing

theorem Stands.of_turn {deliveries : List Delivery} {now next : Inbox} (hturn : Turn now next)
    (h : now.Stands deliveries) : next.Stands deliveries := by
  obtain ⟨done, replies, taken, hstream, hdone, hopens⟩ := h
  cases hturn with
  | onward hmove =>
      have hword := opens_move hopens
      rw [hmove] at hword
      obtain ⟨word, hbuffer, hnext⟩ := hword
      refine ⟨done, replies, taken ++ word, ?_, hdone, hnext⟩
      rw [hstream, hbuffer]
      simp only [List.append_assoc]
  | reply hmove =>
      have hword := opens_move hopens
      rw [hmove] at hword
      obtain ⟨word, hbuffer, hvalue⟩ := hword
      refine ⟨done ++ (taken ++ word), _, [], ?_, denoteEach_concat hdone hvalue, ?_⟩
      · rw [hstream, hbuffer]
        simp only [List.append_assoc, List.nil_append]
      · rw [Reader.unfilled_of_reply hmove]
        exact .nil
  | arrives hmove =>
      refine ⟨done, replies, taken, ?_, hdone, hopens⟩
      rw [hstream, stream, Reader.feed]
      simp only [List.append_assoc]
  | expires hmove => exact ⟨done, replies, taken, hstream, hdone, hopens⟩
  | breaks hmove => exact ⟨done, replies, taken, hstream, hdone, hopens⟩

theorem stands_of_turns {deliveries : List Delivery} {now : Inbox}
    (h : Turns { coming := deliveries } now) : now.Stands deliveries := by
  induction h with
  | refl => exact ⟨[], [], [], rfl, .nil, .nil⟩
  | tail _ hturn ih => exact ih.of_turn hturn

theorem unstopped_of_turns {deliveries : List Delivery} {now : Inbox}
    (h : Turns { coming := deliveries } now) : Machine.Unstopped now :=
  fun _ hnext => Machine.move_eq (stands_of_turns (h.trans hnext)).missing

end Inbox

end Wire

/-! ## Calls on a connection -/

namespace Link

open Wire

variable {π : Type}

theorem turns_receive (link : Link π) : Inbox.Turns link.inbox (Link.receive.left link).inbox := by
  have hturns := link.inbox.takesTurns_receive
  rw [Act.left, Link.receive]
  cases hreceive : link.inbox.receive with
  | ok reply after =>
      rw [hreceive] at hturns
      cases hturns with
      | ok hturns hlast => exact hturns.tail (.reply hlast)
  | error e after =>
      rw [hreceive] at hturns
      cases hturns with
      | error hturns => exact hturns

theorem unfilled_of_receive {link after : Link π} {reply : Reply}
    (h : Link.receive link = .ok reply after) : after.inbox.reader.unfilled = [] := by
  have hturns := link.inbox.takesTurns_receive
  rw [Link.receive] at h
  cases hreceive : link.inbox.receive with
  | ok reply' inbox =>
      rw [hreceive] at h hturns
      cases h
      cases hturns with
      | ok _ hlast => exact Reader.unfilled_of_reply hlast
  | error e inbox => simp [hreceive] at h

/-- A link after some calls that wait for a reply, whatever they come to. -/
def afterCalls (link : Link π) : Nat → Link π
  | 0 => link
  | calls + 1 => Link.receive.left (link.afterCalls calls)

theorem turns_afterCalls (link : Link π) (calls : Nat) :
    Inbox.Turns link.inbox (link.afterCalls calls).inbox := by
  induction calls with
  | zero => exact .refl
  | succ calls ih => exact ih.trans (turns_receive (link.afterCalls calls))

/-- Whatever comes on a new connection, in every state between two turns of a call the open arrays
are those that the bytes taken since the last reply open, and the next move is none that a machine
would be stopped at. After any number of calls, however they end, no call is stopped either, and
one that succeeds leaves no array open. Every length that is read leaves room for a line end in a
word of 64 bits. -/
theorem openArrays_sound (peer : π) (unsent : Bytes) (deliveries : List Delivery) :
    (∀ now, Inbox.Turns { coming := deliveries } now →
      now.Stands deliveries ∧ Machine.move now.reader = .ok now.reader.move) ∧
    (∀ calls,
      let link : Link π := { peer, inbox := { coming := deliveries }, unsent }
      let inbox := (link.afterCalls calls).inbox
      Inbox.Turns { coming := deliveries } inbox ∧ Machine.receive inbox = .ok inbox.receive ∧
        ∀ reply after, Link.receive (link.afterCalls calls) = .ok reply after →
          after.inbox.reader.unfilled = []) ∧
    ∀ role line length, readLength role line = .ok (some length) → length + 2 < 2 ^ 64 := by
  refine ⟨fun now hturns => ?_, fun calls => ?_, ?_⟩
  · exact ⟨Inbox.stands_of_turns hturns, Inbox.unstopped_of_turns hturns now .refl⟩
  · have hturns := turns_afterCalls (⟨peer, { coming := deliveries }, unsent⟩ : Link π) calls
    exact ⟨hturns, Machine.receive_eq (Inbox.unstopped_of_turns hturns),
      fun _ _ => unfilled_of_receive⟩
  · exact fun _ _ _ => Machine.add_two_lt_of_readLength

/-- A reply, and then an array of the greatest length there is, in which an array stands that has
an empty one and one that breaks off. Deadlines pass inside. -/
def threeDeep : List Delivery :=
  [.bytes (ascii "+OK\r\n*9223372036854775807\r\n:1\r\n*2"), .expired,
    .bytes (ascii "\r\n*0\r\n*1\r\n$3\r\nab"), .expired]

theorem openArrays_sound_threeDeep :
    (∃ now, Inbox.Turns { coming := threeDeep } now ∧
      now.reader.unfilled = [⟨1, []⟩, ⟨1, [.array []]⟩, ⟨2 ^ 63 - 2, [.integer 1]⟩] ∧
      now.Stands threeDeep ∧ Machine.move now.reader = .ok .starved) ∧
    (∃ reply, ∃ after : Link Unit,
      Link.receive { peer := (), inbox := { coming := threeDeep } } = .ok reply after ∧
        after.inbox.reader.unfilled = []) ∧
    (readLength "array length" (ascii "9223372036854775807") = .ok (some (2 ^ 63 - 1)) ∧
      2 ^ 63 - 1 + 2 < 2 ^ 64) := by
  obtain ⟨hstates, hcalls, hlengths⟩ := openArrays_sound () [] threeDeep
  refine ⟨?_, ?_, ?_⟩
  · obtain ⟨hturns, -⟩ := hcalls 3
    obtain ⟨hstands, hmachine⟩ := hstates _ hturns
    refine ⟨_, hturns, ?_, hstands, hmachine.trans ?_⟩
    · decide +kernel
    · exact congrArg Except.ok (by decide +kernel)
  · let link : Link Unit := { peer := (), inbox := { coming := threeDeep } }
    have hsucceeds : Link.receive.failure? link = none := by decide +kernel
    cases hreceive : Link.receive link with
    | ok reply after => exact ⟨reply, after, rfl, (hcalls 0).2.2 _ _ hreceive⟩
    | error e after => simp [Act.failure?, hreceive] at hsucceeds
  · have hlength : readLength "array length" (ascii "9223372036854775807") =
        .ok (some (2 ^ 63 - 1)) := by rfl
    exact ⟨hlength, hlengths _ _ _ hlength⟩

end Link

end RespClient
