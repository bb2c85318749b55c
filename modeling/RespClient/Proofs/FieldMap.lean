import RespClient.FieldMap

/-!
# What items make of a map

Items list entries: a field and its value, or a member by itself. Whatever lists the entries
of a map, in any order and as often as it likes, makes that map. An item without bytes stops
the insertion, and what stands before it is in the map.
-/

namespace RespClient

/-- A field with its value, or a member with nothing. -/
abbrev Entry := Bytes × Option Bytes

namespace FieldMap

/-- The items of a reply list some entries, one after the other. -/
def Lists (items : List Reply) (entries : List Entry) : Prop :=
  items.map Reply.payload? = (entries.flatMap fun entry => entry.1 :: entry.2.toList).map some

/-- A map has an entry. -/
def Holds (m : FieldMap) (entry : Entry) : Prop :=
  m[entry.1]? = some entry.2

variable {items : List Reply} {entries : List Entry}

theorem lists_nil : Lists [] [] := rfl

theorem lists_cons_member {item : Reply} {member : Bytes} (hitem : item.payload? = some member)
    (h : Lists items entries) : Lists (item :: items) ((member, none) :: entries) := by
  rw [Lists, List.map_cons, List.flatMap_cons, hitem, h]
  rfl

theorem lists_cons_pair {first second : Reply} {field value : Bytes}
    (hfirst : first.payload? = some field) (hsecond : second.payload? = some value)
    (h : Lists items entries) :
    Lists (first :: second :: items) ((field, some value) :: entries) := by
  rw [Lists, List.map_cons, List.map_cons, List.flatMap_cons, hfirst, hsecond, h]
  rfl

/-- Items that all have bytes list members, -/
theorem exists_lists_members (h : ∀ item ∈ items, item.payload? ≠ none) :
    ∃ entries, Lists items entries ∧ ∀ entry ∈ entries, entry.2 = none := by
  induction items with
  | nil => exact ⟨[], lists_nil, by simp⟩
  | cons item items ih =>
      obtain ⟨hitem, hitems⟩ := List.forall_mem_cons.mp h
      obtain ⟨member, hmember⟩ := Option.ne_none_iff_exists'.mp hitem
      obtain ⟨entries, hlists, hnone⟩ := ih hitems
      exact ⟨_, lists_cons_member hmember hlists, List.forall_mem_cons.mpr ⟨rfl, hnone⟩⟩

/-- and an even number of them fields with values. -/
theorem exists_lists_pairs (h : ∀ item ∈ items, item.payload? ≠ none)
    (heven : items.length % 2 = 0) :
    ∃ entries, Lists items entries ∧ ∀ entry ∈ entries, entry.2 ≠ none := by
  induction items using addAlternating.induct with
  | case1 first second items ih =>
      obtain ⟨hfirst, hsecond, hitems⟩ := by simpa only [List.forall_mem_cons] using h
      obtain ⟨field, hfield⟩ := Option.ne_none_iff_exists'.mp hfirst
      obtain ⟨value, hvalue⟩ := Option.ne_none_iff_exists'.mp hsecond
      simp only [List.length_cons] at heven
      obtain ⟨entries, hlists, hsome⟩ := ih hitems (by omega)
      exact ⟨_, lists_cons_pair hfield hvalue hlists,
        List.forall_mem_cons.mpr ⟨Option.some_ne_none value, hsome⟩⟩
  | case2 items hshort =>
      rcases items with _ | ⟨first, _ | ⟨second, items⟩⟩
      · exact ⟨[], lists_nil, by simp⟩
      · simp at heven
      · exact absurd rfl (hshort first second items)

theorem mem_toList_iff_holds {m : FieldMap} {entry : Entry} :
    entry ∈ m.toList ↔ Holds m entry :=
  Std.ExtTreeMap.mem_toList_iff_getElem?_eq_some

/-- Members by themselves. -/
theorem addMembers_of_lists (h : Lists items entries) (hnone : ∀ entry ∈ entries, entry.2 = none)
    (map : FieldMap) : addMembers items map = .ok () (map.insertMany entries) := by
  induction entries generalizing items map with
  | nil =>
      obtain rfl : items = [] := List.map_eq_nil_iff.mp h
      rw [Std.ExtTreeMap.insertMany_nil]
      rfl
  | cons entry entries ih =>
      obtain ⟨field, value?⟩ := entry
      obtain rfl : value? = none := hnone _ List.mem_cons_self
      obtain ⟨member, rest, rfl, hmember, hrest⟩ := List.map_eq_cons_iff.mp h
      rw [addMembers, Act.bind_apply, addMember, Reply.asBytes_of_payload? hmember]
      dsimp only
      rw [ih hrest (fun e he => hnone e (List.mem_cons_of_mem _ he)),
        Std.ExtTreeMap.insertMany_cons]

/-- Fields and values in turn. -/
theorem addAlternating_of_lists (h : Lists items entries)
    (hsome : ∀ entry ∈ entries, entry.2 ≠ none) (map : FieldMap) :
    addAlternating items map = .ok () (map.insertMany entries) := by
  induction entries generalizing items map with
  | nil =>
      obtain rfl : items = [] := List.map_eq_nil_iff.mp h
      rw [Std.ExtTreeMap.insertMany_nil]
      rfl
  | cons entry entries ih =>
      obtain ⟨field, value?⟩ := entry
      obtain ⟨value, rfl⟩ := Option.ne_none_iff_exists'.mp (hsome _ List.mem_cons_self)
      obtain ⟨first, rest, rfl, hfirst, hrest⟩ := List.map_eq_cons_iff.mp h
      obtain ⟨second, last, rfl, hsecond, hlast⟩ := List.map_eq_cons_iff.mp hrest
      rw [addAlternating, Act.bind_apply, addPair, Reply.asBytes_of_payload? hfirst,
        Reply.asBytes_of_payload? hsecond]
      dsimp only
      rw [ih hlast (fun e he => hsome e (List.mem_cons_of_mem _ he)),
        Std.ExtTreeMap.insertMany_cons]

theorem length_of_lists (h : Lists items entries) (hsome : ∀ entry ∈ entries, entry.2 ≠ none) :
    items.length = 2 * entries.length := by
  have hlength := congrArg List.length h
  rw [List.length_map, List.length_map] at hlength
  rw [hlength]
  clear h hlength
  induction entries with
  | nil => rfl
  | cons entry entries ih =>
      obtain ⟨value, hvalue⟩ := Option.ne_none_iff_exists'.mp (hsome _ List.mem_cons_self)
      rw [List.flatMap_cons, List.length_append, hvalue,
        ih fun e he => hsome e (List.mem_cons_of_mem _ he)]
      simp only [List.length_cons, Option.toList, List.length_nil]
      omega

theorem addPairs_of_lists (h : Lists items entries) (hsome : ∀ entry ∈ entries, entry.2 ≠ none)
    (map : FieldMap) : addPairs items map = .ok () (map.insertMany entries) := by
  rw [addPairs, length_of_lists h hsome, if_neg (by omega)]
  exact addAlternating_of_lists h hsome map

/-- Entries of a map that leave none of it out make the map. -/
theorem insertMany_eq {m : FieldMap} (honly : ∀ entry ∈ entries, Holds m entry)
    (hall : ∀ entry, Holds m entry → entry ∈ entries) :
    (∅ : FieldMap).insertMany entries = m := by
  apply Std.ExtTreeMap.ext_getElem?
  intro field
  rw [Std.ExtTreeMap.getElem?_insertMany_list, Std.ExtTreeMap.getElem?_empty, Option.or_none,
    List.findSomeRev?_eq_findSome?_reverse]
  -- under each field the last entry counts, and like every other it is one of `m`
  cases hfind : List.findSome? _ entries.reverse with
  | none =>
      cases hm : m[field]? with
      | none => rfl
      | some value? =>
          have hentry := List.findSome?_eq_none_iff.mp hfind _
            (List.mem_reverse.mpr (hall (field, value?) hm))
          simp at hentry
  | some value? =>
      obtain ⟨entry, hmem, hentry⟩ := List.exists_of_findSome?_eq_some hfind
      simp only [Option.ite_none_right_eq_some, Option.some.injEq] at hentry
      obtain ⟨hfield, rfl⟩ := hentry
      rw [← Std.LawfulEqCmp.eq_of_compare hfield]
      exact (honly entry (List.mem_reverse.mp hmem)).symm

section

variable {m : FieldMap} (hlists : Lists items entries)
  (hentries : ∀ entry, entry ∈ entries ↔ Holds m entry)

include hlists hentries

/-- A reply that lists the fields of a map with their values is read as that map. -/
theorem ofPairs_of_lists (hsome : ∀ entry, Holds m entry → entry.2 ≠ none) :
    ofPairs (.array items) = .ok m := by
  have honly : ∀ entry ∈ entries, Holds m entry := fun entry => (hentries entry).mp
  have hadd := addPairs_of_lists hlists (fun entry he => hsome entry (honly entry he)) ∅
  rw [insertMany_eq honly fun entry => (hentries entry).mpr] at hadd
  change build (addPairs items) = .ok m
  rw [build, hadd]

/-- A reply that lists the members of a map is read as that map. -/
theorem ofMembers_of_lists (hnone : ∀ entry, Holds m entry → entry.2 = none) :
    ofMembers (.array items) = .ok m := by
  have honly : ∀ entry ∈ entries, Holds m entry := fun entry => (hentries entry).mp
  have hadd := addMembers_of_lists hlists (fun entry he => hnone entry (honly entry he)) ∅
  rw [insertMany_eq honly fun entry => (hentries entry).mpr] at hadd
  change build (addMembers items) = .ok m
  rw [build, hadd]

end

/-! ## Items that stop an insertion -/

/-- The first item without bytes, if there is one. -/
theorem forall_payload_or (items : List Reply) :
    (∀ item ∈ items, item.payload? ≠ none) ∨
      ∃ before item after, items = before ++ item :: after ∧
        (∀ i ∈ before, i.payload? ≠ none) ∧ item.payload? = none := by
  cases hfind : items.find? (fun item => item.payload?.isNone) with
  | none =>
      left
      simpa using List.find?_eq_none.mp hfind
  | some item =>
      right
      obtain ⟨hitem, before, after, hitems, hbefore⟩ := List.find?_eq_some_iff_append.mp hfind
      refine ⟨before, item, after, hitems, ?_, by simpa using hitem⟩
      simpa [Option.isSome_iff_ne_none] using hbefore

theorem addMembers_append (xs ys : List Reply) :
    addMembers (xs ++ ys) = addMembers xs >>= fun _ => addMembers ys := by
  funext map
  induction xs generalizing map with
  | nil => rfl
  | cons member xs ih =>
      rw [List.cons_append, addMembers, addMembers, Act.bind_apply, Act.bind_apply, Act.bind_apply]
      cases addMember member map with
      | ok _ map => exact (ih map).trans (Act.bind_apply _ _ _)
      | error e map => rfl

theorem addAlternating_append {xs : List Reply} (heven : xs.length % 2 = 0) (ys : List Reply) :
    addAlternating (xs ++ ys) = addAlternating xs >>= fun _ => addAlternating ys := by
  funext map
  induction xs using addAlternating.induct generalizing map with
  | case1 field value xs ih =>
      simp only [List.length_cons] at heven
      rw [List.cons_append, List.cons_append, addAlternating, addAlternating, Act.bind_apply,
        Act.bind_apply, Act.bind_apply]
      cases addPair field value map with
      | ok _ map => exact (ih (by omega) map).trans (Act.bind_apply _ _ _)
      | error e map => rfl
  | case2 xs hshort =>
      rcases xs with _ | ⟨first, _ | ⟨second, xs⟩⟩
      · rfl
      · simp at heven
      · exact absurd rfl (hshort first second xs)

variable {before after : List Reply} {item : Reply}

/-- Members are inserted up to the first item that is none. -/
theorem addMembers_of_stop (hbefore : Lists before entries)
    (hnone : ∀ entry ∈ entries, entry.2 = none) (hitem : item.payload? = none) (map : FieldMap) :
    addMembers (before ++ item :: after) map =
      .error (item.cannotConvert "bytes") (map.insertMany entries) := by
  rw [addMembers_append, Act.bind_apply, addMembers_of_lists hbefore hnone]
  dsimp only
  rw [addMembers, Act.bind_apply, addMember, Reply.asBytes_of_payload?_eq_none hitem]

/-- Fields are inserted with their values up to the first pair of which one is neither. -/
theorem addAlternating_of_stop {first second : Reply} (hbefore : Lists before entries)
    (hsome : ∀ entry ∈ entries, entry.2 ≠ none) (hitem : item.payload? = none)
    (hpair : item = first ∨ first.payload? ≠ none ∧ item = second) (map : FieldMap) :
    addAlternating (before ++ first :: second :: after) map =
      .error (item.cannotConvert "bytes") (map.insertMany entries) := by
  have heven : before.length % 2 = 0 := by
    rw [length_of_lists hbefore hsome]
    omega
  rw [addAlternating_append heven, Act.bind_apply, addAlternating_of_lists hbefore hsome]
  dsimp only
  rw [addAlternating, Act.bind_apply, addPair]
  rcases hpair with rfl | ⟨hfirst, rfl⟩
  · rw [Reply.asBytes_of_payload?_eq_none hitem]
  · obtain ⟨field, hfield⟩ := Option.ne_none_iff_exists'.mp hfirst
    rw [Reply.asBytes_of_payload? hfield, Reply.asBytes_of_payload?_eq_none hitem]

/-- Items with bytes are fields and values in turn, and behind them one field more or none. -/
theorem exists_lists_front (h : ∀ i ∈ before, i.payload? ≠ none) :
    ∃ pairs good entries, before = pairs ++ good ∧ good.length < 2 ∧ Lists pairs entries ∧
      ∀ entry ∈ entries, entry.2 ≠ none := by
  rcases Nat.mod_two_eq_zero_or_one before.length with heven | hodd
  · obtain ⟨entries, hlists, hsome⟩ := exists_lists_pairs h heven
    exact ⟨before, [], entries, (List.append_nil before).symm, Nat.zero_lt_two, hlists, hsome⟩
  · rcases List.eq_nil_or_concat before with rfl | ⟨pairs, field, rfl⟩
    · simp at hodd
    · rw [List.concat_eq_append] at h hodd
      rw [List.length_append, List.length_singleton] at hodd
      obtain ⟨entries, hlists, hsome⟩ :=
        exists_lists_pairs (List.forall_mem_append.mp h).1 (by omega)
      exact ⟨pairs, [field], entries, List.concat_eq_append, Nat.one_lt_two, hlists, hsome⟩

/-- An even number of items is stopped at the first that has no bytes. The pairs before the one
that it is a half of are in the map. -/
theorem addPairs_of_stop {pairs good : List Reply} (hpairs : Lists pairs entries)
    (hsome : ∀ entry ∈ entries, entry.2 ≠ none) (hshort : good.length < 2)
    (hgood : ∀ i ∈ good, i.payload? ≠ none) (hitem : item.payload? = none)
    (heven : (pairs ++ good ++ item :: after).length % 2 = 0) (map : FieldMap) :
    addPairs (pairs ++ good ++ item :: after) map =
      .error (item.cannotConvert "bytes") (map.insertMany entries) := by
  rw [addPairs, if_neg (by omega)]
  rcases good with _ | ⟨field, _ | ⟨value, good⟩⟩
  · -- the item is a field, so it has a value behind it
    rw [List.append_nil, List.length_append, length_of_lists hpairs hsome] at heven
    rw [List.append_nil]
    cases after with
    | nil =>
        simp only [List.length_singleton] at heven
        omega
    | cons second after => exact addAlternating_of_stop hpairs hsome hitem (.inl rfl) map
  · rw [List.append_assoc, List.singleton_append]
    exact addAlternating_of_stop hpairs hsome hitem
      (.inr ⟨hgood field (List.mem_singleton_self field), rfl⟩) map
  · simp only [List.length_cons] at hshort
    omega

theorem exists_addPairs_of_stop (hbefore : ∀ i ∈ before, i.payload? ≠ none)
    (hitem : item.payload? = none) (heven : (before ++ item :: after).length % 2 = 0)
    (map : FieldMap) :
    ∃ stopped, addPairs (before ++ item :: after) map =
      .error (item.cannotConvert "bytes") stopped := by
  obtain ⟨pairs, good, entries, rfl, hshort, hpairs, hsome⟩ := exists_lists_front hbefore
  exact ⟨_, addPairs_of_stop hpairs hsome hshort (List.forall_mem_append.mp hbefore).2 hitem heven
    map⟩

end FieldMap

end RespClient
