import RespClient.Proofs.Wire.Request

/-!
# Requests keep to their frames

What a request appends to a buffer can be told from what stands before and behind it, whatever
bytes its arguments hold. Requests that are all appended are read back one by one. One that
fails leaves what stood in the buffer as it was, and behind it the opening of an array that
more bytes would have to complete.
-/

namespace RespClient

namespace Request

open Wire

/-! ## Requests in a row -/

/-- Append requests one after another, up to the first that fails. -/
def appendAll : List Request → Act Bytes Unit
  | [] => pure ()
  | request :: requests => do
      request.append
      appendAll requests

theorem appendAll_eq_spelled {requests : List Request}
    (h : ∀ r ∈ requests, ∀ arg ∈ r.args, arg.isArgument) (buffer : Bytes) :
    appendAll requests buffer =
      .ok () (buffer ++ Reply.encodeItems (requests.map spelled)) := by
  induction requests generalizing buffer with
  | nil => rw [appendAll, List.map_nil, Reply.encodeItems, List.append_nil, Act.pure_apply]
  | cons request requests ih =>
      rw [appendAll, Act.bind_apply, append_eq_spelled (h request List.mem_cons_self)]
      dsimp only
      rw [ih (fun r hr => h r (List.mem_cons_of_mem request hr)), List.append_assoc,
        List.map_cons, Reply.encodeItems]

/-! ## The first argument that cannot be sent -/

/-- What a request puts into the buffer before it meets an argument that cannot be sent: the
head of the whole array, the command, and the arguments that were sent. -/
def opening (request : Request) (sent : List Reply) : Bytes :=
  line 42 (decimal (1 + request.args.length)) ++
    Reply.encodeItems ((Utf8.encode request.command :: sent.map argumentBytes).map .bulk)

theorem argument?_of_not_isArgument {arg : Reply} (h : ¬ arg.isArgument) :
    argument? arg = none := by
  cases arg with
  | bulk | simple | integer => exact absurd rfl h
  | error | null | array => rfl

theorem appendArgs_of_not_isArgument {sent : List Reply} {arg : Reply}
    (hsent : ∀ a ∈ sent, a.isArgument) (harg : ¬ arg.isArgument) (unsent : List Reply)
    (buffer : Bytes) :
    appendArgs (sent ++ arg :: unsent) buffer =
      .error (unsendable arg)
        (buffer ++ Reply.encodeItems ((sent.map argumentBytes).map .bulk)) := by
  induction sent generalizing buffer with
  | nil =>
      rw [List.nil_append, appendArgs, argument?_of_not_isArgument harg, List.map_nil,
        List.map_nil, Reply.encodeItems, List.append_nil]
  | cons a sent ih =>
      rw [List.cons_append, appendArgs, argument?_of_isArgument (hsent a List.mem_cons_self)]
      dsimp only
      rw [ih (fun b hb => hsent b (List.mem_cons_of_mem a hb)), List.append_assoc]
      rfl

theorem append_of_not_isArgument {request : Request} {sent unsent : List Reply} {arg : Reply}
    (hargs : request.args = sent ++ arg :: unsent) (hsent : ∀ a ∈ sent, a.isArgument)
    (harg : ¬ arg.isArgument) (buffer : Bytes) :
    request.append buffer = .error (unsendable arg) (buffer ++ request.opening sent) := by
  rw [append]
  conv => lhs; rw [hargs]
  rw [appendArgs_of_not_isArgument hsent harg, opening, hargs]
  simp only [List.map_cons, Reply.encodeItems, Reply.encode, List.append_assoc]

/-- Either all arguments can be sent, or there is a first that cannot. -/
theorem forall_isArgument_or (args : List Reply) :
    (∀ arg ∈ args, arg.isArgument) ∨
      ∃ sent arg unsent, args = sent ++ arg :: unsent ∧ (∀ a ∈ sent, a.isArgument) ∧
        ¬ arg.isArgument := by
  cases hfind : args.find? (fun arg => !arg.isArgument) with
  | none =>
      left
      simpa using List.find?_eq_none.mp hfind
  | some arg =>
      right
      obtain ⟨harg, sent, unsent, hargs, hsent⟩ := List.find?_eq_some_iff_append.mp hfind
      exact ⟨sent, arg, unsent, hargs, by simpa using hsent, by simpa using harg⟩

theorem exists_append_eq_ok_iff (request : Request) (buffer : Bytes) :
    (∃ after, request.append buffer = .ok () after) ↔ ∀ arg ∈ request.args, arg.isArgument := by
  constructor
  · rintro ⟨after, h⟩
    rcases forall_isArgument_or request.args with hall | ⟨sent, arg, unsent, hargs, hsent, harg⟩
    · exact hall
    · rw [append_of_not_isArgument hargs hsent harg] at h
      cases h
  · intro h
    exact ⟨_, append_eq_spelled h buffer⟩

theorem isArgument_of_appendAll {requests : List Request} {buffer after : Bytes}
    (h : appendAll requests buffer = .ok () after) :
    ∀ r ∈ requests, ∀ arg ∈ r.args, arg.isArgument := by
  induction requests generalizing buffer with
  | nil => simp
  | cons request requests ih =>
      rw [appendAll, Act.bind_eq_ok_iff] at h
      obtain ⟨_, middle, hfirst, hlater⟩ := h
      exact List.forall_mem_cons.mpr
        ⟨(exists_append_eq_ok_iff request buffer).mp ⟨middle, hfirst⟩, ih hlater⟩

/-! ## An opening is not complete -/

/-- The head of the array promises more items than were sent. -/
theorem decode_opening {request : Request} {sent unsent : List Reply} {arg : Reply}
    (hargs : request.args = sent ++ arg :: unsent) (hfits : request.spelled.Fits) :
    decode (request.opening sent) = .incomplete := by
  let words : List Reply := (Utf8.encode request.command :: sent.map argumentBytes).map .bulk
  have hhead : (1 + request.args.length : Int) = (1 + request.args.length : Nat) := by omega
  have hwhole : (Utf8.encode request.command :: request.args.map argumentBytes).map .bulk =
      words ++ ((arg :: unsent).map argumentBytes).map .bulk := by
    simp [words, hargs]
  rw [spelled, Reply.Fits, List.length_map, List.length_cons, List.length_map, Nat.add_comm]
    at hfits
  obtain ⟨hlength, hall⟩ := hfits
  rw [hwhole, Reply.allFit_append] at hall
  have hwords : DenoteEach (Reply.encodeItems words) words :=
    denoteEach_encodeItems words (Reply.allWireSafe_bulk _) hall.1
  have hfewer : words.length < 1 + request.args.length := by
    simp only [words, hargs, List.length_map, List.length_cons, List.length_append]
    omega
  rw [opening, hhead, decode_array (numeral_length hlength), items_of_fewer hwords hfewer]

/-! ## Frames -/

/-- A request is appended exactly when all its arguments have a place in it. Requests that are
all appended to a buffer add bytes to it that read back as the requests, one array of bulk
strings each, with nothing left over. A request that fails adds what comes before its first
argument without a place, and no more: bytes that are an incomplete reply. -/
theorem framed_append (buffer : Bytes) :
    (∀ request : Request, (∃ after, request.append buffer = .ok () after) ↔
      ∀ arg ∈ request.args, arg.isArgument) ∧
    (∀ {requests : List Request} {after : Bytes}, (∀ r ∈ requests, r.spelled.Fits) →
      appendAll requests buffer = .ok () after →
        ∃ bytes, after = buffer ++ bytes ∧
          items decode requests.length [] bytes = .item (requests.map spelled) []) ∧
    ∀ {request : Request} {e : Failure} {after : Bytes}, request.spelled.Fits →
      request.append buffer = .error e after →
        ∃ sent arg unsent, request.args = sent ++ arg :: unsent ∧
          (∀ a ∈ sent, a.isArgument) ∧ ¬ arg.isArgument ∧ e = unsendable arg ∧
          after = buffer ++ request.opening sent ∧
          decode (request.opening sent) = .incomplete := by
  refine ⟨fun request => exists_append_eq_ok_iff request buffer, ?_, ?_⟩
  · intro requests after hfits h
    rw [appendAll_eq_spelled (isArgument_of_appendAll h), EStateM.Result.ok.injEq] at h
    exact ⟨_, h.2.symm, items_spelled hfits⟩
  · intro request e after hfits h
    rcases forall_isArgument_or request.args with hall | ⟨sent, arg, unsent, hargs, hsent, harg⟩
    · rw [append_eq_spelled hall] at h
      cases h
    · rw [append_of_not_isArgument hargs hsent harg, EStateM.Result.error.injEq] at h
      exact ⟨sent, arg, unsent, hargs, hsent, harg, h.1.symm, h.2.symm,
        decode_opening hargs hfits⟩

/-- A request whose arguments look like frames of their own. -/
def hostile : Request where
  command := "set"
  args := [.bulk (ascii "k\r\n*1\r\n$1\r\nx\r\n"), .simple "\r\n$-1", .integer (-5)]

/-- A request with an argument that has no bytes, between two that have some. -/
def broken : Request where
  command := "get"
  args := [.bulk crlf, .null, .integer 7]

theorem framed_append_hostile_broken :
    ((∀ r ∈ [hostile, hostile], r.spelled.Fits) ∧
      ∃ after bytes, appendAll [hostile, hostile] [36] = .ok () after ∧ after = [36] ++ bytes ∧
        items decode 2 [] bytes = .item [hostile.spelled, hostile.spelled] []) ∧
    (broken.spelled.Fits ∧
      ∃ e after sent, broken.append [36] = .error e after ∧
        after = [36] ++ broken.opening sent ∧ decode (broken.opening sent) = .incomplete) := by
  have hhostile : ∀ r ∈ [hostile, hostile], r.spelled.Fits := by
    simp only [hostile, spelled, List.map_cons, List.map_nil, List.forall_mem_cons,
      List.not_mem_nil, false_implies, implies_true, Reply.Fits, Reply.AllFit]
    decide +kernel
  have hbroken : broken.spelled.Fits := by
    simp only [broken, spelled, List.map_cons, List.map_nil, Reply.Fits, Reply.AllFit]
    decide +kernel
  obtain ⟨-, hframed, hfailed⟩ := framed_append [36]
  have happended : appendAll [hostile, hostile] [36] =
      .ok () ([36] ++ Reply.encodeItems ([hostile, hostile].map spelled)) :=
    appendAll_eq_spelled (by simp [hostile, Reply.isArgument]) [36]
  obtain ⟨bytes, hafter, hread⟩ := hframed hhostile happended
  obtain ⟨e, after, herror⟩ : ∃ e after, broken.append [36] = .error e after := ⟨_, _, rfl⟩
  obtain ⟨sent, -, -, -, -, -, -, hopening, hincomplete⟩ := hfailed hbroken herror
  exact ⟨⟨hhostile, _, bytes, happended, hafter, hread⟩,
    hbroken, e, after, sent, herror, hopening, hincomplete⟩

end Request

end RespClient
