import RespClient.Proofs.Client.Batch
import RespClient.Proofs.Client.Legs
import RespClient.Proofs.Client.Retries
import RespClient.Proofs.Content

/-!
# A value in pages and in one reply

A walk collects a value page by page, and a fetch reads it from one reply. As long as the
pages list entries of the value only, and leave none out, the two come to the same map:
it does not matter how the entries are spread over the pages, in which order they come and
how often. Each type of collection has a command of its own that walks it, and one that
fetches it.
-/

namespace RespClient

open FieldMap

/-- A page of a walk: a cursor in decimal digits, and the items that list some entries. -/
structure Page where
  cursor : UInt64
  entries : List Entry
  digits : List Char
  written : Decimal.Writes digits cursor.toNat
  head : Reply
  shown : head.payload? = some (Utf8.encode (String.ofList digits))
  items : List Reply
  listed : Lists items entries

/-- What the server sends for a page. -/
def Page.reply (page : Page) : Reply :=
  .array [page.head, .array page.items]

/-- A page is a portion of a value whose entries it suits. -/
def Page.portion {type : KeyType} (page : Page)
    (hsuited : ∀ entry ∈ page.entries, entry.2 = none ↔ type = .set) : Portion type where
  head := page.head
  next := page.cursor
  shown := ⟨page.digits, page.shown, .bare page.written⟩
  items := page.items
  entries := page.entries
  listed := page.listed
  suited := hsuited

namespace Collection

variable {type : KeyType} {m : FieldMap} {content : Content}

theorem suited (h : Collection type m content) {entry : Entry} (hentry : Holds m entry) :
    entry.2 = none ↔ type = .set := by
  cases h with
  | hash h | zset h => exact iff_of_false (h entry hentry) (by simp)
  | set h => exact iff_of_true (h entry hentry) rfl

/-- Pages that list entries of a collection are portions. -/
theorem exists_portions (h : Collection type m content) {pages : List Page}
    (honly : ∀ page ∈ pages, ∀ entry ∈ page.entries, Holds m entry) :
    ∃ portions : List (Portion type), portions.map Portion.next = pages.map Page.cursor ∧
      portions.map Portion.entries = pages.map Page.entries ∧
        portions.map Portion.reply = pages.map Page.reply := by
  induction pages with
  | nil => exact ⟨[], rfl, rfl, rfl⟩
  | cons page pages ih =>
      obtain ⟨hpage, hpages⟩ := List.forall_mem_cons.mp honly
      obtain ⟨portions, hnexts, hentries, hreplies⟩ := ih hpages
      refine ⟨page.portion (fun entry he => h.suited (hpage entry he)) :: portions, ?_, ?_, ?_⟩
      · rw [List.map_cons, List.map_cons, hnexts]
        rfl
      · rw [List.map_cons, List.map_cons, hentries]
        rfl
      · rw [List.map_cons, List.map_cons, hreplies]
        rfl

end Collection

/-- How a server is asked for the collection under a key: the command that walks it, and the
request that fetches the whole of it. -/
inductive AskedBy (key : Bytes) : KeyType → String → Request → Prop where
  | hash : AskedBy key .hash "hscan" { command := "hgetall", args := [.bulk key] }
  | zset : AskedBy key .zset "zscan"
      { command := "zrange"
        args := [.bulk key, .integer 0, .integer (-1), .ofText "WITHSCORES"] }
  | set : AskedBy key .set "sscan" { command := "smembers", args := [.bulk key] }

namespace AskedBy

variable {key : Key} {walks : String} {fetch : Request}

theorem scanCommand?_eq (h : AskedBy key.bytes key.type walks fetch) :
    key.type.scanCommand? = some walks := by
  obtain ⟨bytes, type⟩ := key
  cases h <;> rfl

theorem fetchRequest_eq (h : AskedBy key.bytes key.type walks fetch) :
    Client.fetchRequest key = fetch := by
  obtain ⟨bytes, type⟩ := key
  cases h <;> rfl

end AskedBy

namespace Client

open Answering (Welcomes)
open Journal

section

variable {σ : Type} [Network σ] {client : Client} {session : Session (Journal σ)} {key : Key}
  {m : FieldMap} {content : Content} {rest : List Reply}

/-- A walk over pages asks with cursor 0 and then with theirs, and inserts the entries of all
pages up to the one with cursor 0. -/
theorem exists_walked (hm : Collection key.type m content) {command : String}
    (hcommand : key.type.scanCommand? = some command) (count : Nat) {earlier : List Page}
    {last : Page} (hearlier : ∀ page ∈ earlier, page.cursor ≠ 0) (hlast : last.cursor = 0)
    (honly : ∀ page ∈ earlier ++ [last], ∀ entry ∈ page.entries, Holds m entry)
    (h : client.Brings ((earlier ++ [last]).map Page.reply ++ rest) session) :
    ∃ legs after, Walked client command key count session after legs
        (0 :: earlier.map Page.cursor) ((earlier ++ [last]).map Page.reply) rest ∧
      ∀ rounds, earlier.length < rounds → client.scan key count rounds session =
        .ok (some ((∅ : FieldMap).insertMany ((earlier ++ [last]).flatMap Page.entries)))
          after := by
  obtain ⟨hbefore, hend⟩ := List.forall_mem_append.mp honly
  obtain ⟨portions, hnexts, hentries, hreplies⟩ := hm.exists_portions hbefore
  let ending : Portion key.type :=
    last.portion fun entry he => hm.suited (hend last (List.mem_singleton_self last) entry he)
  have hnonzero : ∀ cursor ∈ portions.map Portion.next, cursor ≠ 0 := by
    rw [hnexts]
    exact List.forall_mem_map.mpr hearlier
  have hportions : ∀ portion ∈ portions, portion.next ≠ 0 :=
    fun portion hportion => hnonzero _ (List.mem_map_of_mem hportion)
  rw [List.map_append, List.append_assoc, ← hreplies] at h
  obtain ⟨legs, after, hlegs, hcursors, hlegReplies, hrest, hwalk⟩ :=
    exists_legs command count hportions {} h
  have hlength : earlier.length = portions.length := by
    simpa using (congrArg List.length hreplies).symm
  have hzero : ending.next = 0 := hlast
  have hlisted : (portions ++ [ending]).flatMap Portion.entries =
      (earlier ++ [last]).flatMap Page.entries := by
    rw [List.flatMap_append, List.flatMap_append, List.flatMap_def, hentries, ← List.flatMap_def]
    rfl
  refine ⟨legs, after, walked_of_legs hlegs ?_ ?_ hrest, fun rounds hrounds => ?_⟩
  · rw [hcursors, hnexts]
  · rw [hlegReplies, hreplies, List.map_append, List.map_singleton]
  · obtain ⟨more, rfl⟩ := Nat.exists_eq_add_of_lt hrounds
    have hfound := Walk.entries_foldl_past (portions ++ [ending]) {}
    rw [List.foldl_append, hlisted] at hfound
    have htaken : client.takeIn command key count more (portions.foldl Walk.past {}) last.reply
        after = _ := takeIn_portion client command count more _ ending after
    rw [scan_eq_walk hcommand, hlength, hwalk, htaken, if_pos hzero]
    exact congrArg (fun found => EStateM.Result.ok (some found) after) hfound

/-! ## The whole value -/

/-- One question of a client that is served is all that it asks, behind the opening of a connection
if it holds none. -/
theorem exists_run_of_served {request : Request} {reply : Reply}
    (hbytes : ∃ bytes, request.encode = .ok bytes)
    (h : client.Served (reply :: rest) session) :
    ∃ opening after, client.run [request] session = .ok [reply] after ∧
      after.network.events =
        session.network.events ++ opening ++ roundCalls [request] [reply] ∧
      opening.filterMap Event.call? =
        (if session.connected then [] else client.opening.map Network.Stage.call) ∧
      client.Served rest after := by
  obtain ⟨ready, hconnect, P, hP, hready⟩ := h
  have hready : P 0 0 ([reply] ++ rest) ready.network := hready
  obtain ⟨network, hround, hnetwork⟩ :=
    hP.round (List.forall_mem_singleton.mpr hbytes) rfl hready
  obtain ⟨-, -, opening, hevents, hcalls⟩ :=
    events_of_attempt (attempt_of_round hconnect hround)
  exact ⟨opening, _, run_of_round (List.cons_ne_nil _ _) hconnect hround, hevents, hcalls,
    served_of_connected rfl ⟨P, hP, hnetwork⟩⟩

end

theorem eval_contents (keys : List Key) (reply : List Request → Except Failure (List Reply)) :
    (Operation.contents keys).plan.eval reply =
      reply (keys.map fetchRequest) >>= readContents keys := by
  change (do
    let replies ← (reply (keys.map fetchRequest)).mapError id
    ((Plan.answer (replies.mapM Reply.answer)).bind _).eval reply) = _
  cases reply (keys.map fetchRequest) with
  | error e => rfl
  | ok replies =>
      change ((Plan.answer (replies.mapM Reply.answer)).bind _).eval reply =
        readContents keys replies
      rw [readContents]
      cases replies.mapM Reply.answer <;> rfl

theorem answers_of_encode {f : Request → Reply} {requests : List Request}
    (hbytes : ∀ request ∈ requests, ∃ bytes, request.encode = .ok bytes) :
    answers f requests = .ok (requests.map f) := by
  have hchecked : checkAll requests = .ok () := by
    induction requests with
    | nil => rfl
    | cons request requests ih =>
        obtain ⟨⟨bytes, hencode⟩, hrest⟩ := List.forall_mem_cons.mp hbytes
        rw [checkAll, check, hencode]
        exact ih hrest
  rw [answers, hchecked]
  rfl

/-- What a peer that answers by `f` makes of a fetch. -/
theorem eval_contents_answers (keys : List Key) (f : Request → Reply) :
    (Operation.contents keys).plan.eval (answers f) =
      readContents keys (keys.map fun key => f (fetchRequest key)) := by
  have hbytes : ∀ request ∈ keys.map fetchRequest, ∃ bytes, request.encode = .ok bytes :=
    List.forall_mem_map.mpr fun key _ => exists_encode_fetchRequest key
  rw [eval_contents, answers_of_encode hbytes, List.map_map]
  rfl

/-- Contents that are read are those of their own replies. -/
theorem forall₂_of_readContents {keys : List Key} {reply : Key → Reply} {contents : List Content}
    (h : readContents keys (keys.map reply) = .ok contents) :
    List.Forall₂ (fun key content => Content.ofReply key.type (reply key) = .ok content)
      keys contents := by
  have hread := readContents_eq (keys.map fun key => (key, reply key))
  simp only [List.map_map, Function.comp_def, List.map_id'] at hread
  rw [hread] at h
  cases hanswers : (keys.map fun key => (key, reply key)).mapM fun x => x.2.answer with
  | error e =>
      rw [hanswers] at h
      cases h
  | ok answers =>
      rw [hanswers] at h
      exact List.forall₂_map_left_iff.mp (mapM_eq_ok_iff.mp h)

/-- Whatever pages list the entries of a collection, and only them, a walk asks for them one after
the other and ends with that collection. A fetch of the key asks once, and reads the same
collection from a reply that lists the entries in any order. That is so with any server that
answers this one request in that way, and in whatever batch the key is fetched. -/
theorem scan_eq_fetched {σ : Type} [Network σ] (client : Client) {key : Key} {walks : String}
    {fetch : Request} (hasked : AskedBy key.bytes key.type walks fetch) {m : FieldMap}
    {content : Content} {earlier : List Page} {last : Page} (hm : Collection key.type m content)
    (hearlier : ∀ page ∈ earlier, page.cursor ≠ 0) (hlast : last.cursor = 0)
    (honly : ∀ page ∈ earlier ++ [last], ∀ entry ∈ page.entries, Holds m entry)
    (hall : ∀ entry, Holds m entry → ∃ page ∈ earlier ++ [last], entry ∈ page.entries) :
    (∀ {session : Session (Journal σ)} {rest : List Reply} (count : Nat),
      client.Brings ((earlier ++ [last]).map Page.reply ++ rest) session →
        ∃ legs after, Walked client walks key count session after legs
            (0 :: earlier.map Page.cursor) ((earlier ++ [last]).map Page.reply) rest ∧
          ∀ rounds, (earlier ++ [last]).length ≤ rounds →
            (Operation.scan key count rounds).perform client session = .ok (some m) after) ∧
    ∀ {items : List Reply} {entries : List Entry},
      Lists items entries → (∀ entry, entry ∈ entries ↔ Holds m entry) →
        (∀ {session : Session (Journal σ)} {rest : List Reply},
          client.Served (.array items :: rest) session →
            ∃ opening after,
              (Operation.contents [key]).perform client session = .ok [content] after ∧
              after.network.events =
                session.network.events ++ opening ++ roundCalls [fetch] [.array items] ∧
              opening.filterMap Event.call? =
                (if session.connected then [] else client.opening.map Network.Stage.call) ∧
              client.Served rest after) ∧
        ∀ {f : Request → Reply} {session : Session (Answering f)},
          f fetch = .array items → Welcomes f client.endpoint client.db →
            Reached client session →
              (client.Within (Operation.contents [key]).plan session →
                ((Operation.contents [key]).perform client).outcome session = .ok [content]) ∧
              ∀ {keys : List Key} {contents : List Content},
                client.Within (Operation.contents keys).plan session →
                  ((Operation.contents keys).perform client).outcome session = .ok contents →
                    List.Forall₂ (fun k c => k = key → c = content) keys contents := by
  refine ⟨fun {session rest} count h => ?_, fun {items entries} hlists hentries => ?_⟩
  · obtain ⟨legs, after, hwalked, hscan⟩ :=
      exists_walked hm hasked.scanCommand?_eq count hearlier hlast honly h
    -- a walk begins with nothing, so what it ends with are the entries of all pages
    have hentries : (∅ : FieldMap).insertMany ((earlier ++ [last]).flatMap Page.entries) = m := by
      apply insertMany_eq
      · intro entry hentry
        obtain ⟨page, hpage, hlisted⟩ := List.mem_flatMap.mp hentry
        exact honly page hpage entry hlisted
      · exact fun entry hentry => List.mem_flatMap.mpr (hall entry hentry)
    rw [hentries] at hscan
    refine ⟨legs, after, hwalked, fun rounds hrounds => hscan rounds ?_⟩
    rwa [List.length_append] at hrounds
  · have hcontent : Content.ofReply key.type (.array items) = .ok content :=
      hm.ofReply hlists hentries
    have hread : readContents [key] [.array items] = .ok [content] := by
      have hone := readContent_eq_ok_iff.mpr
        ⟨(rfl : (key, Reply.array items).2.answer = .ok (.array items)), hcontent⟩
      exact (readContents_singleton (key, .array items)).trans (congrArg _ hone)
    constructor
    · intro session rest hs
      have hbytes := exists_encode_fetchRequest key
      rw [hasked.fetchRequest_eq] at hbytes
      obtain ⟨opening, after, hrun, hevents, hcalls, hrest⟩ := exists_run_of_served hbytes hs
      refine ⟨opening, after, ?_, hevents, hcalls, hrest⟩
      rw [Operation.perform, contents_eq_run, Act.bind_apply, List.map_singleton, hasked.fetchRequest_eq,
        hrun]
      dsimp only
      rw [hread, Act.ofExcept_ok]
    · intro f session hanswer hf hreached
      have hidle := idle_of_reached hf hreached
      constructor
      · intro hwithin
        rw [Operation.perform_eq_run, outcome_run hf _ hidle hwithin, eval_contents_answers,
          List.map_singleton, hasked.fetchRequest_eq, hanswer, hread]
      · intro keys contents hwithin hcontents
        rw [Operation.perform_eq_run, outcome_run hf _ hidle hwithin,
          eval_contents_answers] at hcontents
        refine (forall₂_of_readContents hcontents).imp ?_
        rintro k c hc rfl
        rw [hasked.fetchRequest_eq, hanswer, hcontent] at hc
        exact (Except.ok.inj hc).symm

/-- Two members with their scores. -/
def twoScores : FieldMap :=
  ((∅ : FieldMap).insert [97] (some [49])).insert [98] (some [50])

/-- A page that shows its cursor with a zero before it, and one of the members. -/
def firstPage : Page where
  cursor := 7
  entries := [([97], some [49])]
  digits := ['0', '7']
  written := ⟨by decide, List.all_eq_true.mp (by decide), by decide⟩
  head := .simple "07"
  shown := by decide
  items := [.bulk [97], .simple "1"]
  listed := by rfl

/-- The largest cursor, and no members. -/
def emptyPage : Page where
  cursor := 18446744073709551615
  entries := []
  digits := "18446744073709551615".toList
  written := ⟨by decide, List.all_eq_true.mp (by decide), by decide⟩
  head := .bulk (ascii "18446744073709551615")
  shown := by decide
  items := []
  listed := lists_nil

/-- Both members, one of them again. -/
def lastPage : Page where
  cursor := 0
  entries := [([98], some [50]), ([97], some [49])]
  digits := ['0']
  written := ⟨by decide, List.all_eq_true.mp (by decide), by decide⟩
  head := .bulk [48]
  shown := by decide
  items := [.bulk [98], .bulk [50], .bulk [97], .bulk [49]]
  listed := by rfl

theorem holds_twoScores {entry : Entry} :
    Holds twoScores entry ↔ entry ∈ lastPage.entries := by
  obtain ⟨field, value?⟩ := entry
  simp only [Holds, twoScores, lastPage, Std.ExtTreeMap.getElem?_insert, Std.compare_eq_iff_eq,
    Std.ExtTreeMap.getElem?_empty]
  split
  · next h => simp [← h, eq_comm]
  · next hb =>
      split
      · next h => simp [← h, eq_comm]
      · next ha => simp [Ne.symm ha, Ne.symm hb]

/-- A session whose script brings given replies. -/
def scripted (replies : List Reply) : Session (Journal Script) where
  network := { state := .ofReplies replies }
  connected := true

theorem served_scripted (client : Client) (replies : List Reply) :
    client.Served replies (scripted replies) := by
  obtain ⟨P, hP, hstate⟩ := Script.serves_ofReplies replies
  exact served_of_connected rfl ⟨_, obliging hP, hstate⟩

/-- A server that holds one sorted set and nothing else. -/
def holdsScores (request : Request) : Reply :=
  if request = ⟨"zrange", [.bulk [107], .integer 0, .integer (-1), .ofText "WITHSCORES"]⟩ then
    .array lastPage.items
  else if request.command = "select" then .simple "OK"
  else .null

theorem scan_eq_fetched_twoScores :
    (∃ legs after, Walked plainClient "zscan" scoresKey 10
        (scripted ([firstPage, emptyPage, lastPage].map Page.reply)) after legs
        [0, 7, 18446744073709551615] ([firstPage, emptyPage, lastPage].map Page.reply) [] ∧
      (Operation.scan scoresKey 10 3).perform plainClient
        (scripted ([firstPage, emptyPage, lastPage].map Page.reply)) =
          .ok (some twoScores) after) ∧
    (∃ opening after, (Operation.contents [scoresKey]).perform plainClient
        (scripted [.array lastPage.items]) = .ok [.zset twoScores] after ∧
      after.network.events = opening ++ roundCalls
        [⟨"zrange", [.bulk [107], .integer 0, .integer (-1), .ofText "WITHSCORES"]⟩]
        [.array lastPage.items] ∧
      opening.filterMap Event.call? = []) ∧
    ((Operation.contents [scoresKey]).perform plainClient).outcome
      { network := ({} : Answering holdsScores) } = .ok [.zset twoScores] ∧
    ∃ first, ((Operation.contents [⟨[120], .string⟩, scoresKey]).perform plainClient).outcome
      { network := ({} : Answering holdsScores) } = .ok [first, .zset twoScores] := by
  have hm : Collection scoresKey.type twoScores (.zset twoScores) := by
    refine .zset fun entry hentry => ?_
    rcases List.mem_pair.mp (holds_twoScores.mp hentry) with rfl | rfl <;> simp
  have hearlier : ∀ page ∈ [firstPage, emptyPage], page.cursor ≠ 0 := by
    simp only [List.forall_mem_cons]
    exact ⟨by decide, by decide, by simp⟩
  have honly : ∀ page ∈ [firstPage, emptyPage] ++ [lastPage],
      ∀ entry ∈ page.entries, Holds twoScores entry := by
    simp [holds_twoScores, firstPage, emptyPage, lastPage]
  have hall : ∀ entry, Holds twoScores entry →
      ∃ page ∈ [firstPage, emptyPage] ++ [lastPage], entry ∈ page.entries :=
    fun entry hentry => ⟨lastPage, by simp, holds_twoScores.mp hentry⟩
  have hpages : plainClient.Brings (([firstPage, emptyPage] ++ [lastPage]).map Page.reply ++ [])
      (scripted ([firstPage, emptyPage, lastPage].map Page.reply)) :=
    brings_of_served (served_scripted plainClient _)
  obtain ⟨hscan, hfetch⟩ :=
    scan_eq_fetched (σ := Script) plainClient .zset hm hearlier rfl honly hall
  obtain ⟨hcalls, hpeer⟩ := hfetch lastPage.listed fun _ => holds_twoScores.symm
  refine ⟨?_, ?_, ?_⟩
  · obtain ⟨legs, after, hwalked, hfound⟩ := hscan 10 hpages
    exact ⟨legs, after, hwalked, hfound 3 (by decide)⟩
  · obtain ⟨opening, after, hcontents, hevents, hopening, -⟩ :=
      hcalls (served_scripted plainClient [.array lastPage.items])
    exact ⟨opening, after, hcontents, hevents, hopening⟩
  · have hwelcomes : Welcomes holdsScores plainClient.endpoint plainClient.db := by
      constructor
      · intro secret hsecret
        cases hsecret
      · intro text
        simp [holdsScores]
    have hidle : Idle (f := holdsScores) True { network := {} } :=
      ⟨fun _ _ => rfl, fun hconnected => Bool.noConfusion hconnected⟩
    obtain ⟨hone, hbatch⟩ := hpeer rfl hwelcomes (.fresh _)
    refine ⟨hone (within_of_calm hwelcomes trivial _ hidle), ?_⟩
    let both : Operation (List Content) := .contents [⟨[120], .string⟩, scoresKey]
    have hsucceeds : ((both.perform plainClient).outcome
        { network := ({} : Answering holdsScores) }).isOk = true := by decide +kernel
    cases hcontents : (both.perform plainClient).outcome
        { network := ({} : Answering holdsScores) } with
    | error e =>
        rw [hcontents] at hsucceeds
        cases hsucceeds
    | ok contents =>
        cases hbatch (within_of_calm hwelcomes trivial _ hidle) hcontents with
        | cons _ hrest =>
            cases hrest with
            | cons hsecond hnone =>
                cases hnone
                rw [hsecond rfl] at hcontents ⊢
                exact ⟨_, rfl⟩

end Client

end RespClient
