import RespClient.Proofs.Act
import RespClient.Proofs.FieldMap
import RespClient.Proofs.LastEntry

/-!
# The effect of items on a map

Adding items to a map puts their entries on top of it, up to the first item that is no string.
Under each key the last entry counts, and under all others the map is what it was, so no key is
ever lost. An odd number of items is no row of pairs and changes nothing. Where adding two lists
in one go succeeds, it is adding the one and then the other.
-/

namespace RespClient

namespace Reply

/-- A bulk string carries its bytes, and a simple string those of its text. -/
inductive Carries : Reply → Bytes → Prop where
  | bulk (data : Bytes) : Carries (.bulk data) data
  | simple (text : String) : Carries (.simple text) (Utf8.encode text)

/-- A reply is a bulk or a simple string. -/
def IsString (reply : Reply) : Prop :=
  ∃ data, reply.Carries data

theorem payload?_eq_some_iff {reply : Reply} {data : Bytes} :
    reply.payload? = some data ↔ reply.Carries data := by
  constructor
  · intro h
    cases reply <;> cases h <;> constructor
  · rintro (_ | _) <;> rfl

theorem isString_iff {reply : Reply} : reply.IsString ↔ reply.payload? ≠ none := by
  rw [Option.ne_none_iff_exists']
  exact exists_congr fun _ => payload?_eq_some_iff.symm

theorem cannotConvert_bytes (reply : Reply) : reply.cannotConvert "bytes" =
    .conversion ("Cannot convert " ++ reply.describe ++ " to bytes") := by
  rw [cannotConvert, String.append_assoc]
  rfl

end Reply

namespace FieldMap

/-! ## Entries of items -/

/-- Items are fields and values in turn. -/
inductive Pairs : List Reply → List Entry → Prop where
  | nil : Pairs [] []
  | cons {first second : Reply} {field value : Bytes} {items : List Reply} {entries : List Entry}
      (hfield : first.Carries field) (hvalue : second.Carries value) (h : Pairs items entries) :
      Pairs (first :: second :: items) ((field, some value) :: entries)

/-- Items are members. -/
inductive Members : List Reply → List Entry → Prop where
  | nil : Members [] []
  | cons {item : Reply} {member : Bytes} {items : List Reply} {entries : List Entry}
      (hmember : item.Carries member) (h : Members items entries) :
      Members (item :: items) ((member, none) :: entries)

variable {items : List Reply} {entries : List Entry}

theorem pairs_iff : Pairs items entries ↔
    Lists items entries ∧ ∀ entry ∈ entries, entry.2 ≠ none := by
  constructor
  · intro h
    induction h with
    | nil => exact ⟨lists_nil, by simp⟩
    | cons hfield hvalue _ ih =>
        exact ⟨lists_cons_pair (Reply.payload?_eq_some_iff.mpr hfield)
          (Reply.payload?_eq_some_iff.mpr hvalue) ih.1,
          List.forall_mem_cons.mpr ⟨Option.some_ne_none _, ih.2⟩⟩
  · rintro ⟨hlists, hsome⟩
    induction entries generalizing items with
    | nil =>
        obtain rfl : items = [] := List.map_eq_nil_iff.mp hlists
        exact .nil
    | cons entry entries ih =>
        obtain ⟨field, value?⟩ := entry
        obtain ⟨hvalue?, hentries⟩ := List.forall_mem_cons.mp hsome
        obtain ⟨value, rfl⟩ := Option.ne_none_iff_exists'.mp hvalue?
        obtain ⟨first, rest, rfl, hfirst, hrest⟩ := List.map_eq_cons_iff.mp hlists
        obtain ⟨second, last, rfl, hsecond, hlast⟩ := List.map_eq_cons_iff.mp hrest
        exact .cons (Reply.payload?_eq_some_iff.mp hfirst) (Reply.payload?_eq_some_iff.mp hsecond)
          (ih hlast hentries)

theorem members_iff : Members items entries ↔
    Lists items entries ∧ ∀ entry ∈ entries, entry.2 = none := by
  constructor
  · intro h
    induction h with
    | nil => exact ⟨lists_nil, by simp⟩
    | cons hmember _ ih =>
        exact ⟨lists_cons_member (Reply.payload?_eq_some_iff.mpr hmember) ih.1,
          List.forall_mem_cons.mpr ⟨rfl, ih.2⟩⟩
  · rintro ⟨hlists, hnone⟩
    induction entries generalizing items with
    | nil =>
        obtain rfl : items = [] := List.map_eq_nil_iff.mp hlists
        exact .nil
    | cons entry entries ih =>
        obtain ⟨member, value?⟩ := entry
        obtain ⟨rfl, hentries⟩ := List.forall_mem_cons.mp hnone
        obtain ⟨item, rest, rfl, hitem, hrest⟩ := List.map_eq_cons_iff.mp hlists
        exact .cons (Reply.payload?_eq_some_iff.mp hitem) (ih hrest hentries)

/-! ## Entries on top of a map -/

/-- A map with some entries on top of it: under each key the last of them, and where there is
none what the map had before. -/
def Overlaid (m : FieldMap) (entries : List Entry) (after : FieldMap) : Prop :=
  ∀ (key : Bytes) (payload : Option Bytes), after[key]? = some payload ↔
    LastUnder entries key payload ∨
      (∀ entry ∈ entries, entry.1 ≠ key) ∧ m[key]? = some payload

theorem overlaid_insertMany (m : FieldMap) (entries : List Entry) :
    Overlaid m entries (m.insertMany entries) := by
  intro key payload
  have hnone : (∀ entry ∈ entries, ∀ v, entry ≠ (key, v)) ↔ ∀ entry ∈ entries, entry.1 ≠ key := by
    simp [Prod.ext_iff]
  rw [getElem?_insertMany_iff, hnone]

/-- What adding items to a map comes to, where as many items as `together` are added at a time. -/
structure Effect (add : List Reply → Act FieldMap Unit) (reads : List Reply → List Entry → Prop)
    (together : Nat) (items : List Reply) (m : FieldMap) : Prop where
  succeeds : (∃ after, add items m = .ok () after) ↔ ∀ item ∈ items, item.IsString
  /-- A success puts the entries of all items on top. -/
  whole {after : FieldMap} (h : add items m = .ok () after) :
    ∃ entries, reads items entries ∧ Overlaid m entries after
  /-- The first item that is no string is refused, and with it the good ones that would have been
  added together with it. What stands before these is in the map. -/
  stopped (h : ∃ item ∈ items, ¬ item.IsString) :
    ∃ before good item later entries after,
      items = before ++ good ++ item :: later ∧ good.length < together ∧
      (∀ i ∈ good, i.IsString) ∧ ¬ item.IsString ∧
      add items m = .error (.conversion ("Cannot convert " ++ item.describe ++ " to bytes")) after ∧
      add before m = .ok () after ∧ reads before entries ∧ Overlaid m entries after

theorem Effect.of_insertMany {add : List Reply → Act FieldMap Unit}
    {reads : List Reply → List Entry → Prop} {together : Nat} {m : FieldMap}
    (hgood : (∀ item ∈ items, item.payload? ≠ none) →
      ∃ entries, reads items entries ∧ add items m = .ok () (m.insertMany entries))
    (hbad : ∀ {front later : List Reply} {item : Reply}, items = front ++ item :: later →
      (∀ i ∈ front, i.payload? ≠ none) → item.payload? = none →
      ∃ before good entries, front = before ++ good ∧ good.length < together ∧
        reads before entries ∧ add before m = .ok () (m.insertMany entries) ∧
        add items m = .error (item.cannotConvert "bytes") (m.insertMany entries)) :
    Effect add reads together items m := by
  have hstopped : ∀ {front later : List Reply} {item : Reply}, items = front ++ item :: later →
      (∀ i ∈ front, i.payload? ≠ none) → item.payload? = none →
      ¬ ∃ after, add items m = .ok () after := by
    rintro front later item hitems hfront hitem ⟨after, hadd⟩
    obtain ⟨_, _, _, -, -, -, -, herror⟩ := hbad hitems hfront hitem
    rw [hadd] at herror
    cases herror
  have hstrings : (∃ after, add items m = .ok () after) → ∀ item ∈ items, item.payload? ≠ none := by
    intro hadd
    rcases forall_payload_or items with hall | ⟨front, item, later, hitems, hfront, hitem⟩
    · exact hall
    · exact absurd hadd (hstopped hitems hfront hitem)
  constructor
  case succeeds =>
    constructor
    · exact fun hadd item hmem => Reply.isString_iff.mpr (hstrings hadd item hmem)
    · intro hall
      obtain ⟨entries, -, hadd⟩ := hgood fun item hmem => Reply.isString_iff.mp (hall item hmem)
      exact ⟨_, hadd⟩
  case whole =>
    intro after hadd
    obtain ⟨entries, hreads, hentries⟩ := hgood (hstrings ⟨after, hadd⟩)
    rw [hadd] at hentries
    cases hentries
    exact ⟨entries, hreads, overlaid_insertMany m entries⟩
  case stopped =>
    rintro ⟨bad, hmem, hnot⟩
    rcases forall_payload_or items with hall | ⟨front, item, later, hitems, hfront, hitem⟩
    · exact absurd (Reply.isString_iff.mpr (hall bad hmem)) hnot
    · obtain ⟨before, good, entries, rfl, hshort, hreads, hbefore, hadd⟩ :=
        hbad hitems hfront hitem
      rw [Reply.cannotConvert_bytes] at hadd
      refine ⟨before, good, item, later, entries, _, hitems, hshort, ?_, ?_, hadd, hbefore, hreads,
        overlaid_insertMany m entries⟩
      · exact fun i hi => Reply.isString_iff.mpr (hfront i (List.mem_append_right before hi))
      · rw [Reply.isString_iff, hitem]
        exact not_not_intro rfl

theorem effect_addMembers (items : List Reply) (m : FieldMap) :
    Effect addMembers Members 1 items m := by
  apply Effect.of_insertMany
  · intro hitems
    obtain ⟨entries, hlists, hnone⟩ := exists_lists_members hitems
    exact ⟨entries, members_iff.mpr ⟨hlists, hnone⟩, addMembers_of_lists hlists hnone m⟩
  · rintro front later item rfl hfront hitem
    obtain ⟨entries, hlists, hnone⟩ := exists_lists_members hfront
    exact ⟨front, [], entries, (List.append_nil front).symm, Nat.one_pos,
      members_iff.mpr ⟨hlists, hnone⟩, addMembers_of_lists hlists hnone m,
      addMembers_of_stop hlists hnone hitem m⟩

theorem effect_addPairs (heven : items.length % 2 = 0) (m : FieldMap) :
    Effect addPairs Pairs 2 items m := by
  apply Effect.of_insertMany
  · intro hitems
    obtain ⟨entries, hlists, hsome⟩ := exists_lists_pairs hitems heven
    exact ⟨entries, pairs_iff.mpr ⟨hlists, hsome⟩, addPairs_of_lists hlists hsome m⟩
  · rintro front later item rfl hfront hitem
    obtain ⟨before, good, entries, rfl, hshort, hlists, hsome⟩ := exists_lists_front hfront
    exact ⟨before, good, entries, rfl, hshort, pairs_iff.mpr ⟨hlists, hsome⟩,
      addPairs_of_lists hlists hsome m,
      addPairs_of_stop hlists hsome hshort (List.forall_mem_append.mp hfront).2 hitem heven m⟩

/-! ## Keys -/

open Act

theorem keeps_addMember (key : Bytes) (member : Reply) : Keeps (key ∈ ·) (addMember member) := by
  apply keeps_of_left
  intro m hkey
  rw [left, addMember]
  cases member.asBytes with
  | error e => exact hkey
  | ok data => exact Std.ExtTreeMap.mem_insert.mpr (.inr hkey)

theorem keeps_addPair (key : Bytes) (field value : Reply) :
    Keeps (key ∈ ·) (addPair field value) := by
  apply keeps_of_left
  intro m hkey
  rw [left, addPair]
  cases field.asBytes with
  | error e => exact hkey
  | ok field =>
      cases value.asBytes with
      | error e => exact hkey
      | ok value => exact Std.ExtTreeMap.mem_insert.mpr (.inr hkey)

theorem keeps_addMembers (key : Bytes) (items : List Reply) :
    Keeps (key ∈ ·) (addMembers items) := by
  induction items with
  | nil => exact keeps_ofExcept (.ok ())
  | cons member items ih => exact (keeps_addMember key member).bind fun _ => ih

theorem keeps_addAlternating (key : Bytes) (items : List Reply) :
    Keeps (key ∈ ·) (addAlternating items) := by
  induction items using addAlternating.induct with
  | case1 field value items ih =>
      rw [addAlternating]
      exact (keeps_addPair key field value).bind fun _ => ih
  | case2 items hshort =>
      rw [addAlternating]
      · exact keeps_ofExcept (.ok ())
      · exact hshort

theorem keeps_addPairs (key : Bytes) (items : List Reply) : Keeps (key ∈ ·) (addPairs items) := by
  apply keeps_of_left
  intro m hkey
  by_cases hodd : items.length % 2 = 1
  · rw [left, addPairs, if_pos hodd]
    exact hkey
  · rw [left, addPairs, if_neg hodd]
    exact (keeps_addAlternating key items).left hkey

/-! ## Items in two lists -/

theorem addPairs_eq_ok_iff {m after : FieldMap} : addPairs items m = .ok () after ↔
    items.length % 2 = 0 ∧ addAlternating items m = .ok () after := by
  rw [addPairs]
  split
  · next hodd => simp [hodd]
  · next heven => simp [Nat.mod_two_ne_one.mp heven]

theorem addMembers_append_eq_ok_iff {later : List Reply} {m after : FieldMap} :
    addMembers (items ++ later) m = .ok () after ↔
      ∃ between, addMembers items m = .ok () between ∧ addMembers later between = .ok () after := by
  rw [addMembers_append, bind_eq_ok_iff]
  exact ⟨fun ⟨_, between, h⟩ => ⟨between, h⟩, fun ⟨between, h⟩ => ⟨(), between, h⟩⟩

theorem addPairs_append_eq_ok_iff {later : List Reply} {m after : FieldMap}
    (heven : items.length % 2 = 0) :
    addPairs (items ++ later) m = .ok () after ↔
      ∃ between, addPairs items m = .ok () between ∧ addPairs later between = .ok () after := by
  have hlength : (items ++ later).length % 2 = 0 ↔ later.length % 2 = 0 := by
    rw [List.length_append]
    omega
  simp only [addPairs_eq_ok_iff, hlength, heven, true_and, addAlternating_append heven,
    bind_eq_ok_iff]
  constructor
  · rintro ⟨hlater, _, between, hitems, hafter⟩
    exact ⟨between, hitems, hlater, hafter⟩
  · rintro ⟨between, hitems, hlater, hafter⟩
    exact ⟨hlater, (), between, hitems, hafter⟩

/-! ## The effect as a whole -/

/-- An odd number of items is refused as pairs and changes nothing. Otherwise pairs, and members
in any number, have the effect of their entries up to the first item that is no string. No key is
lost either way, and adding two lists in one go succeeds exactly where adding one and then the
other does, to the same end. -/
theorem effect_addPairs_addMembers (m : FieldMap) (items : List Reply) :
    (items.length % 2 = 1 →
      addPairs items m = .error (.conversion
        ("expected field/value pairs, got " ++ Decimal.text items.length ++ " items")) m) ∧
    (items.length % 2 = 0 → Effect addPairs Pairs 2 items m) ∧
    Effect addMembers Members 1 items m ∧
    (∀ key, Keeps (key ∈ ·) (addPairs items) ∧ Keeps (key ∈ ·) (addMembers items)) ∧
    ∀ later after,
      (items.length % 2 = 0 →
        (addPairs (items ++ later) m = .ok () after ↔
          ∃ between, addPairs items m = .ok () between ∧ addPairs later between = .ok () after)) ∧
      (addMembers (items ++ later) m = .ok () after ↔
        ∃ between, addMembers items m = .ok () between ∧
          addMembers later between = .ok () after) := by
  refine ⟨fun hodd => if_pos hodd, fun heven => effect_addPairs heven m, effect_addMembers items m,
    fun key => ⟨keeps_addPairs key items, keeps_addMembers key items⟩, fun later after => ?_⟩
  exact ⟨addPairs_append_eq_ok_iff, addMembers_append_eq_ok_iff⟩

/-- A field twice, one with nil for its value, and a good pair behind it. -/
def nilValue : List Reply :=
  [.simple "a", .bulk [49], .bulk [97], .bulk [50], .simple "b", .null, .bulk [99], .bulk [51]]

/-- A member that is also a field of the items, and a field that they come to too late. -/
def known : FieldMap :=
  (∅ : FieldMap).insertMany [([97], none), ([99], some [57])]

theorem effect_addPairs_addMembers_nilValue :
    (nilValue.length % 2 = 0 ∧ ∃ item ∈ nilValue, ¬ item.IsString) ∧
    (∃ before later after, nilValue = before ++ later ∧
      addPairs nilValue known = .error (.conversion "Cannot convert Null to bytes") after ∧
      addPairs before known = .ok () after ∧
      after.toList = [([97], some [50]), ([99], some [57])]) ∧
    addPairs (nilValue.take 5) known =
      .error (.conversion "expected field/value pairs, got 5 items") known ∧
    (∃ after, addPairs (nilValue.take 2 ++ [.bulk [97], .bulk [50]]) known = .ok () after ∧
      after.toList = [([97], some [50]), ([99], some [57])]) := by
  have hnil : ∃ item ∈ nilValue, ¬ item.IsString := by
    refine ⟨.null, by simp [nilValue], ?_⟩
    rw [Reply.isString_iff]
    exact not_not_intro rfl
  have hfails : Act.failure? (addPairs nilValue) known =
      some (.conversion "Cannot convert Null to bytes") := by rfl
  have hleft : (Act.left (addPairs nilValue) known).toList =
      [([97], some [50]), ([99], some [57])] := by rfl
  refine ⟨⟨rfl, hnil⟩, ?_, ?_, ?_⟩
  · obtain ⟨before, good, item, later, entries, after, hitems, -, -, -, hadd, hbefore, -⟩ :=
      ((effect_addPairs_addMembers known nilValue).2.1 rfl).stopped hnil
    rw [Act.eq_error_of_failure? hfails, EStateM.Result.error.injEq] at hadd
    obtain ⟨-, rfl⟩ := hadd
    rw [List.append_assoc] at hitems
    exact ⟨before, _, _, hitems, Act.eq_error_of_failure? hfails, hbefore, hleft⟩
  · exact (effect_addPairs_addMembers known (nilValue.take 5)).1 rfl
  · obtain ⟨-, -, -, -, happend⟩ := effect_addPairs_addMembers known (nilValue.take 2)
    exact ⟨_, ((happend _ _).1 rfl).mpr ⟨_, rfl, rfl⟩, by rfl⟩

end FieldMap

end RespClient
