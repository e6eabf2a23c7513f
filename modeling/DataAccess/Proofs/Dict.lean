import DataAccess.Dict
import Mathlib.Data.List.Induction
import Mathlib.Data.List.Nodup

namespace DataAccess.Dict

variable {α β : Type} {d : Dict α} {key : String} {value : α}

theorem mem_of_get? (found : d.get? key = some value) : (key, value) ∈ d := by
  induction d with
  | nil => simp [get?] at found
  | cons entry rest ih =>
      obtain ⟨k, v⟩ := entry
      by_cases same : k = key
      · subst k
        simp only [get?, ↓reduceIte, Option.some.injEq] at found
        simp [found]
      · simp only [get?, same, ↓reduceIte] at found
        exact List.mem_cons_of_mem _ (ih found)

theorem mem_keys_of_mem (member : (key, value) ∈ d) : key ∈ d.keys :=
  List.mem_map.mpr ⟨_, member, rfl⟩

theorem get?_eq_none_iff : d.get? key = none ↔ key ∉ d.keys := by
  induction d with
  | nil => simp [get?, keys]
  | cons entry rest ih =>
      obtain ⟨k, v⟩ := entry
      by_cases same : k = key
      · subst k
        simp [get?, keys]
      · have apart : ¬ key = k := fun equal => same equal.symm
        simpa [get?, keys, same, apart] using ih

theorem exists_of_mem_keys (listed : key ∈ d.keys) : ∃ value, d.get? key = some value :=
  Option.ne_none_iff_exists'.mp fun absent => get?_eq_none_iff.mp absent listed

theorem get?_of_mem (distinct : d.Distinct) (member : (key, value) ∈ d) :
    d.get? key = some value := by
  induction d with
  | nil => cases member
  | cons entry rest ih =>
      obtain ⟨k, v⟩ := entry
      obtain ⟨fresh, distinct⟩ := List.nodup_cons.mp distinct
      rcases List.mem_cons.mp member with same | later
      · cases same
        simp [get?]
      · have different : k ≠ key := fun same => fresh (same ▸ mem_keys_of_mem later)
        simpa only [get?, different, ↓reduceIte] using ih distinct later

theorem mem_iff_get? (distinct : d.Distinct) : (key, value) ∈ d ↔ d.get? key = some value :=
  ⟨get?_of_mem distinct, mem_of_get?⟩

theorem insertNew_of_contains (present : d.contains key = true) (value : α) :
    d.insertNew key value = d := by
  simp [insertNew, present]

theorem insert_of_not_mem (fresh : key ∉ d.keys) : d.insert key value = d ++ [(key, value)] := by
  induction d with
  | nil => rfl
  | cons entry rest ih =>
      obtain ⟨k, v⟩ := entry
      simp only [keys, List.map_cons, List.mem_cons, not_or] at fresh
      have different : ¬ k = key := fun same => fresh.1 same.symm
      simp only [insert, different, ↓reduceIte, List.cons_append]
      rw [ih fresh.2]

theorem insertNew_of_get?_eq_none (absent : d.get? key = none) (value : α) :
    d.insertNew key value = d.insert key value := by
  rw [insert_of_not_mem (get?_eq_none_iff.mp absent)]
  simp [insertNew, contains, absent]

theorem insert_of_get? (found : d.get? key = some value) : d.insert key value = d := by
  induction d with
  | nil => simp [get?] at found
  | cons entry rest ih =>
      obtain ⟨k, v⟩ := entry
      by_cases same : k = key
      · simp_all [get?, insert]
      · simp_all [get?, insert]

theorem insert_insert (d : Dict α) (key : String) (value other : α) :
    (d.insert key value).insert key other = d.insert key other := by
  induction d with
  | nil => simp [insert]
  | cons entry rest ih =>
      obtain ⟨k, v⟩ := entry
      by_cases same : k = key
      · simp [insert, same]
      · simp [insert, same, ih]

theorem keys_insert (d : Dict α) (key : String) (value : α) :
    (d.insert key value).keys = if key ∈ d.keys then d.keys else d.keys ++ [key] := by
  induction d with
  | nil => simp [insert, keys]
  | cons entry rest ih =>
      obtain ⟨k, v⟩ := entry
      by_cases same : k = key
      · simp [insert, keys, same]
      · have apart : ¬ key = k := fun equal => same equal.symm
        by_cases member : key ∈ List.map Prod.fst rest
        · simpa [insert, keys, same, apart, member] using ih
        · simpa [insert, keys, same, apart, member] using ih

theorem keys_insertNew (d : Dict α) (key : String) (value : α) :
    (d.insertNew key value).keys = if key ∈ d.keys then d.keys else d.keys ++ [key] := by
  by_cases member : key ∈ d.keys
  · have present : d.contains key = true := by
      rw [contains, Option.isSome_iff_ne_none]
      exact fun absent => get?_eq_none_iff.mp absent member
    rw [insertNew_of_contains present, if_pos member]
  · rw [insertNew_of_get?_eq_none (get?_eq_none_iff.mpr member), keys_insert]

/-- Entries of which, of two with one key, the earlier one counts. -/
def ofListNew (entries : List (String × α)) : Dict α :=
  entries.foldl (fun d entry => d.insertNew entry.1 entry.2) []

theorem ofList_concat (entries : List (String × α)) (entry : String × α) :
    ofList (entries ++ [entry]) = (ofList entries).insert entry.1 entry.2 := by
  simp [ofList]

theorem ofListNew_concat (entries : List (String × α)) (entry : String × α) :
    ofListNew (entries ++ [entry]) = (ofListNew entries).insertNew entry.1 entry.2 := by
  simp [ofListNew]

theorem keys_ofListNew (entries : List (String × α)) :
    (ofListNew entries).keys = (ofList entries).keys := by
  induction entries using List.reverseRecOn with
  | nil => rfl
  | append_singleton entries entry ih =>
      rw [ofListNew_concat, ofList_concat, keys_insertNew, keys_insert, ih]

theorem distinct_insert (distinct : d.Distinct) (key : String) (value : α) :
    Distinct (d.insert key value) := by
  rw [Distinct, keys_insert]
  split
  · exact distinct
  · rename_i fresh
    refine List.nodup_append.mpr
      ⟨distinct, List.nodup_singleton _, fun other member last listed => ?_⟩
    rw [List.mem_singleton.mp listed]
    exact fun same => fresh (same ▸ member)

theorem distinct_insertNew (distinct : d.Distinct) (key : String) (value : α) :
    Distinct (d.insertNew key value) := by
  rw [Distinct, keys_insertNew, ← keys_insert d key value]
  exact distinct_insert distinct key value

theorem distinct_ofList (entries : List (String × α)) : Distinct (ofList entries) := by
  induction entries using List.reverseRecOn with
  | nil => exact List.nodup_nil
  | append_singleton entries entry ih =>
      rw [ofList_concat]
      exact distinct_insert ih entry.1 entry.2

/-- The last entry leaves no gap. -/
theorem eraseSwap_concat (fresh : key ∉ d.keys) (value : α) :
    eraseSwap (d ++ [(key, value)]) key = d := by
  induction d with
  | nil => simp [eraseSwap]
  | cons entry rest ih =>
      obtain ⟨k, v⟩ := entry
      simp only [keys, List.map_cons, List.mem_cons, not_or] at fresh
      have different : ¬ k = key := fun same => fresh.1 same.symm
      simp only [List.cons_append, eraseSwap, different, ↓reduceIte]
      rw [ih fresh.2]

theorem get?_insert (d : Dict α) (key other : String) (value : α) :
    (d.insert key value).get? other = if key = other then some value else d.get? other := by
  split
  · rename_i same
    rw [← same, get?_insert_self]
  · rename_i apart
    exact get?_insert_of_ne d value apart

theorem get?_append (first second : Dict α) (key : String) :
    get? (first ++ second) key = (get? first key).or (get? second key) := by
  induction first with
  | nil => simp [get?]
  | cons entry rest ih =>
      obtain ⟨k, v⟩ := entry
      by_cases same : k = key
      · simp [get?, same]
      · simpa [get?, same] using ih

theorem get?_ofList (entries : List (String × α)) (key : String) :
    get? (ofList entries) key = get? entries.reverse key := by
  induction entries using List.reverseRecOn with
  | nil => rfl
  | append_singleton entries entry ih =>
      rw [ofList_concat, get?_insert, ih, List.reverse_append]
      rfl

theorem mem_keys_ofList (entries : List (String × α)) :
    key ∈ (ofList entries).keys ↔ key ∈ keys entries := by
  refine not_iff_not.mp ?_
  rw [← get?_eq_none_iff, get?_ofList, get?_eq_none_iff, keys, keys, List.map_reverse,
    List.mem_reverse]

theorem get?_insertNew (d : Dict α) (key other : String) (value : α) :
    (d.insertNew key value).get? other = (d.get? other).or (get? [(key, value)] other) := by
  cases found : d.get? key with
  | some present =>
      rw [insertNew_of_contains (by simp [contains, found])]
      by_cases same : key = other
      · simp [← same, found]
      · simp [get?, same]
  | none =>
      rw [insertNew_of_get?_eq_none found, insert_of_not_mem (get?_eq_none_iff.mp found), get?_append]

theorem get?_ofListNew (entries : List (String × α)) (key : String) :
    (ofListNew entries).get? key = get? entries key := by
  induction entries using List.reverseRecOn with
  | nil => rfl
  | append_singleton entries entry ih =>
      rw [ofListNew_concat, get?_insertNew, ih, get?_append]

/-- A dictionary is its keys, in their order, and what each of them holds. -/
theorem eq_of_keys_of_get? {first second : Dict α} (distinct : first.Distinct)
    (keys_eq : first.keys = second.keys)
    (same : ∀ key ∈ first.keys, first.get? key = second.get? key) : first = second := by
  induction first generalizing second with
  | nil =>
      cases second with
      | nil => rfl
      | cons entry rest => simp [keys] at keys_eq
  | cons entry rest ih =>
      cases second with
      | nil => simp [keys] at keys_eq
      | cons other tail =>
          obtain ⟨k, v⟩ := entry
          obtain ⟨l, w⟩ := other
          obtain ⟨rfl, tails⟩ : k = l ∧ Dict.keys rest = Dict.keys tail := by
            simpa [keys] using keys_eq
          obtain ⟨fresh, distinct⟩ := List.nodup_cons.mp distinct
          have head : v = w := by simpa [get?] using same k (by simp [keys])
          have later : rest = tail := by
            refine ih distinct tails fun key member => ?_
            have apart : ¬ k = key := fun equal => fresh (equal ▸ member)
            simpa [get?, apart] using same key (List.mem_cons_of_mem _ member)
          rw [head, later]

theorem foldl_insert_eq_append (first rest : Dict α) (distinct : Distinct (first ++ rest)) :
    rest.foldl (fun d entry => insert d entry.1 entry.2) first = first ++ rest := by
  induction rest generalizing first with
  | nil => simp
  | cons entry rest ih =>
      have fresh : entry.1 ∉ keys first := by
        intro member
        have apart := List.nodup_append.mp (by simpa [Distinct, keys] using distinct)
        exact apart.2.2 _ (by simpa [keys] using member) _ (by simp) rfl
      rw [List.foldl_cons, insert_of_not_mem fresh]
      simpa using ih (first ++ [entry]) (by simpa using distinct)

theorem ofList_eq_self (distinct : d.Distinct) : ofList d = d :=
  foldl_insert_eq_append [] d distinct

theorem keys_map (rename : String → String) (d : Dict α) :
    keys (d.map fun entry => (rename entry.1, entry.2)) = d.keys.map rename := by
  simp [keys, Function.comp_def]

theorem mem_keys_mapKeys {rename : String → String} :
    key ∈ keys (d.mapKeys rename) ↔ ∃ name ∈ d.keys, rename name = key := by
  rw [mapKeys, mem_keys_ofList, keys_map, List.mem_map]

/-- Names that stay apart are renamed in their places. -/
theorem mapKeys_eq_map {rename : String → String}
    (apart : (d.keys.map rename).Nodup) :
    d.mapKeys rename = d.map fun entry => (rename entry.1, entry.2) := by
  apply ofList_eq_self
  rw [Distinct, keys_map]
  exact apart

theorem mapKeys_perm {rename : String → String} {other : Dict α} (perm : other.Perm d)
    (apart : (d.keys.map rename).Nodup) : (other.mapKeys rename).Perm (d.mapKeys rename) := by
  have others : ((keys other).map rename).Nodup :=
    ((perm.map Prod.fst).map rename).nodup_iff.mpr apart
  rw [mapKeys_eq_map apart, mapKeys_eq_map others]
  exact perm.map _

theorem get?_map_keys {rename : String → String}
    (apart : ∀ other ∈ d.keys, rename other = rename key → other = key) :
    get? (d.map fun entry => (rename entry.1, entry.2)) (rename key) = d.get? key := by
  induction d with
  | nil => rfl
  | cons entry rest ih =>
      obtain ⟨k, v⟩ := entry
      have tail := ih fun other member => apart other (List.mem_cons_of_mem _ member)
      by_cases same : k = key
      · subst k
        simp [get?]
      · have different : ¬ rename k = rename key := fun equal =>
          same (apart k (by simp [keys]) equal)
        simpa only [List.map_cons, get?, same, different, ↓reduceIte] using tail

theorem get?_map_find? (rename : String → String) (d : Dict α) (key : String) :
    get? (d.map fun entry => (rename entry.1, entry.2)) key =
      (d.find? fun entry => rename entry.1 = key).map Prod.snd := by
  induction d with
  | nil => rfl
  | cons entry rest ih =>
      by_cases same : rename entry.1 = key
      · simp [get?, same]
      · simpa [get?, same] using ih

/-- Names that stay apart are found under their new names. -/
theorem get?_map_of_apart {rename : String → String} (apart : (d.keys.map rename).Nodup)
    (found : d.get? key = some value) :
    get? (d.map fun entry => (rename entry.1, entry.2)) (rename key) = some value := by
  have member : key ∈ d.keys := mem_keys_of_mem (mem_of_get? found)
  rw [get?_map_keys, found]
  exact fun other listed same => List.inj_on_of_nodup_map apart listed member same

theorem keys_map_self (names : List String) (f : String → α) :
    keys (names.map fun name => (name, f name)) = names := by
  simp [keys, Function.comp_def]

theorem get?_map_self {names : List String} (f : String → α) (listed : key ∈ names) :
    get? (names.map fun name => (name, f name)) key = some (f key) := by
  induction names with
  | nil => cases listed
  | cons name rest ih =>
      by_cases same : name = key
      · simp [get?, same]
      · rcases List.mem_cons.mp listed with rfl | later
        · exact (same rfl).elim
        · simpa [get?, same] using ih later

theorem eraseSwap_of_not_mem (fresh : key ∉ d.keys) : d.eraseSwap key = d := by
  induction d with
  | nil => rfl
  | cons entry rest ih =>
      obtain ⟨k, v⟩ := entry
      simp only [keys, List.map_cons, List.mem_cons, not_or] at fresh
      have different : ¬ k = key := fun same => fresh.1 same.symm
      simp only [eraseSwap, different, ↓reduceIte]
      rw [ih fresh.2]

theorem filter_ne_of_not_mem (fresh : key ∉ d.keys) :
    d.filter (fun entry => entry.1 ≠ key) = d := by
  refine List.filter_eq_self.mpr fun entry member => decide_eq_true fun equal => ?_
  exact fresh (equal ▸ mem_keys_of_mem member)

theorem eraseSwap_perm (distinct : d.Distinct) (key : String) :
    (d.eraseSwap key).Perm (d.filter fun entry => entry.1 ≠ key) := by
  induction d with
  | nil => exact .nil
  | cons entry rest ih =>
      obtain ⟨k, v⟩ := entry
      obtain ⟨fresh, distinct⟩ := List.nodup_cons.mp distinct
      by_cases same : k = key
      · subst k
        rw [List.filter_cons_of_neg (by simp), filter_ne_of_not_mem fresh, eraseSwap, if_pos rfl]
        rcases List.eq_nil_or_concat rest with rfl | ⟨front, last, rfl⟩
        · exact .nil
        · simpa using (List.perm_append_singleton last front).symm
      · rw [List.filter_cons_of_pos (by simpa using same), eraseSwap, if_neg same]
        exact (ih distinct).cons _

theorem distinct_of_perm {first second : Dict α} (perm : first.Perm second)
    (distinct : second.Distinct) : first.Distinct :=
  (perm.map Prod.fst).nodup_iff.mpr distinct

theorem distinct_eraseSwap (distinct : d.Distinct) (key : String) : (d.eraseSwap key).Distinct :=
  distinct_of_perm (eraseSwap_perm distinct key)
    (List.Nodup.sublist (List.Sublist.map _ List.filter_sublist) distinct)

/-- Wherever the key was written, the other entries remain. -/
theorem eraseSwap_of_perm {wider : Dict α} (distinct : d.Distinct) (fresh : key ∉ d.keys)
    (perm : wider.Perm ((key, value) :: d)) : (wider.eraseSwap key).Perm d := by
  have widened : Distinct ((key, value) :: d) := List.nodup_cons.mpr ⟨fresh, distinct⟩
  refine (eraseSwap_perm (distinct_of_perm perm widened) key).trans ?_
  refine (perm.filter _).trans ?_
  rw [List.filter_cons_of_neg (by simp), filter_ne_of_not_mem fresh]

theorem get?_eraseSwap_of_ne {other : String} (distinct : d.Distinct) (apart : other ≠ key) :
    (d.eraseSwap key).get? other = d.get? other := by
  ext value
  rw [← mem_iff_get? (distinct_eraseSwap distinct key), ← mem_iff_get? distinct,
    (eraseSwap_perm distinct key).mem_iff, List.mem_filter]
  simp [apart]

theorem distinct_filterValues (keep : α → Bool) (distinct : d.Distinct) :
    (d.filterValues keep).Distinct :=
  List.Nodup.sublist (List.Sublist.map _ List.filter_sublist) distinct

theorem get?_filterValues (keep : α → Bool) (distinct : d.Distinct) :
    (d.filterValues keep).get? key = (d.get? key).filter keep := by
  have kept := distinct_filterValues keep distinct
  ext value
  rw [← mem_iff_get? kept, Option.filter_eq_some_iff, ← mem_iff_get? distinct]
  exact List.mem_filter

theorem mem_keys_of_filterValues {keep : α → Bool} (kept : key ∈ (d.filterValues keep).keys) :
    key ∈ d.keys :=
  (List.filter_sublist.map Prod.fst).subset kept

theorem filterValues_eq_self {keep : α → Bool} (all : ∀ value ∈ d.values, keep value = true) :
    d.filterValues keep = d :=
  List.filter_eq_self.mpr fun _ member => all _ (List.mem_map.mpr ⟨_, member, rfl⟩)

end DataAccess.Dict
