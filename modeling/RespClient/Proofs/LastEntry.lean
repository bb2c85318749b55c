import Std.Data.ExtTreeMap.Lemmas

/-!
# The last entry counts

Where entries are put into a map one after the other, it holds under each key the value of
the last entry with that key, and what it held before where there is none.
-/

namespace RespClient

variable {ι α β : Type}

/-- The last of some items that `tells` a value under a key tells this one. -/
def LastTells (tells : ι → α → β → Prop) (items : List ι) (key : α) (value : β) : Prop :=
  ∃ earlier item later, items = earlier ++ item :: later ∧ tells item key value ∧
    ∀ i ∈ later, ∀ v, ¬ tells i key v

/-- The last entry under a key has a value. -/
def LastUnder : List (α × β) → α → β → Prop :=
  LastTells fun entry key value => entry = (key, value)

section

variable {tells : ι → α → β → Prop} {key : α} {value : β}

theorem not_lastTells_nil : ¬ LastTells tells [] key value := by
  rintro ⟨earlier, item, later, h, -⟩
  simp at h

theorem lastTells_cons {item : ι} {items : List ι} :
    LastTells tells (item :: items) key value ↔
      LastTells tells items key value ∨
        tells item key value ∧ ∀ i ∈ items, ∀ v, ¬ tells i key v := by
  constructor
  · rintro ⟨earlier, found, later, h, htells, hlater⟩
    cases earlier with
    | nil =>
        obtain ⟨rfl, rfl⟩ := List.cons.inj h
        exact .inr ⟨htells, hlater⟩
    | cons first earlier =>
        exact .inl ⟨earlier, found, later, (List.cons.inj h).2, htells, hlater⟩
  · rintro (⟨earlier, found, later, rfl, htells, hlater⟩ | ⟨htells, hlater⟩)
    · exact ⟨item :: earlier, found, later, rfl, htells, hlater⟩
    · exact ⟨[], item, items, rfl, htells, hlater⟩

end

section

variable {cmp : α → α → Ordering} [Std.TransCmp cmp] [Std.LawfulEqCmp cmp]

theorem getElem?_insertMany_iff {map : Std.ExtTreeMap α β cmp} {entries : List (α × β)} {key : α}
    {value : β} :
    (map.insertMany entries)[key]? = some value ↔
      LastUnder entries key value ∨
        (∀ entry ∈ entries, ∀ v, entry ≠ (key, v)) ∧ map[key]? = some value := by
  induction entries generalizing map with
  | nil => simp [LastUnder, not_lastTells_nil]
  | cons entry entries ih =>
      obtain ⟨k, v⟩ := entry
      have hcmp : cmp k key = .eq ↔ k = key := Std.LawfulEqCmp.compare_eq_iff_eq
      rw [Std.ExtTreeMap.insertMany_cons, ih, Std.ExtTreeMap.getElem?_insert, LastUnder,
        lastTells_cons, List.forall_mem_cons]
      by_cases hk : k = key
      · simp [hk, and_comm]
      · simp [hcmp, hk]

/-- A map that is filled from nothing holds the last entries. -/
theorem getElem?_insertMany_empty_iff {entries : List (α × β)} {key : α} {value : β} :
    ((∅ : Std.ExtTreeMap α β cmp).insertMany entries)[key]? = some value ↔
      LastUnder entries key value := by
  rw [getElem?_insertMany_iff]
  simp

/-! ## Entries under different keys -/

/-- Where no key comes twice, each entry is the last one under its key. -/
theorem lastUnder_iff_mem {entries : List (α × β)} (h : (entries.map Prod.fst).Nodup) {key : α}
    {value : β} : LastUnder entries key value ↔ (key, value) ∈ entries := by
  constructor
  · rintro ⟨earlier, entry, later, rfl, rfl, -⟩
    exact List.mem_append_right _ List.mem_cons_self
  · intro hmem
    obtain ⟨earlier, later, rfl⟩ := List.append_of_mem hmem
    refine ⟨earlier, (key, value), later, rfl, rfl, ?_⟩
    rintro entry hlater v rfl
    rw [List.map_append, List.map_cons, List.nodup_append, List.nodup_cons] at h
    exact h.2.1.1 (List.mem_map.mpr ⟨(key, v), hlater, rfl⟩)

theorem toList_insertMany_perm {entries : List (α × β)} (h : (entries.map Prod.fst).Nodup) :
    ((∅ : Std.ExtTreeMap α β cmp).insertMany entries).toList.Perm entries := by
  have hentries : entries.Nodup := by
    refine List.Pairwise.of_map Prod.fst (fun a b hne heq => hne ?_) h
    rw [heq]
  have hlist : ((∅ : Std.ExtTreeMap α β cmp).insertMany entries).toList.Nodup := by
    refine Std.ExtTreeMap.distinct_keys_toList.imp fun {a b} hne heq => hne ?_
    rw [heq]
    exact Std.ReflCmp.compare_self
  rw [List.perm_ext_iff_of_nodup hlist hentries]
  rintro ⟨key, value⟩
  rw [Std.ExtTreeMap.mem_toList_iff_getElem?_eq_some, getElem?_insertMany_empty_iff,
    lastUnder_iff_mem h]

/-- The entries of a map make it, in whatever order they are inserted. -/
theorem insertMany_eq_of_perm {entries : List (α × β)} {map : Std.ExtTreeMap α β cmp}
    (h : entries.Perm map.toList) : (∅ : Std.ExtTreeMap α β cmp).insertMany entries = map := by
  have hkeys : (entries.map Prod.fst).Nodup := by
    rw [(h.map Prod.fst).nodup_iff, Std.ExtTreeMap.map_fst_toList_eq_keys]
    exact Std.ExtTreeMap.nodup_keys
  apply Std.ExtTreeMap.ext_getElem?
  intro key
  apply Option.ext
  intro value
  rw [getElem?_insertMany_empty_iff, lastUnder_iff_mem hkeys, h.mem_iff,
    Std.ExtTreeMap.mem_toList_iff_getElem?_eq_some]

end

end RespClient
