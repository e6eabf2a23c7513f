import DataAccess.Dao.Key
import DataAccess.Proofs.Dict
import DataAccess.Proofs.Path

namespace DataAccess

namespace Dict

variable {α β : Type} {d e : Dict α}

def mapValues (f : α → β) (d : Dict α) : Dict β := d.map fun entry => (entry.1, f entry.2)

theorem keys_mapValues (f : α → β) (d : Dict α) : (d.mapValues f).keys = d.keys := by
  simp [keys, mapValues]

theorem keys_of_mapValues {f : α → β} (same : d.mapValues f = e.mapValues f) : d.keys = e.keys := by
  rw [← keys_mapValues f d, same, keys_mapValues]

theorem get?_mapValues (f : α → β) (d : Dict α) (key : String) :
    (d.mapValues f).get? key = (d.get? key).map f := by
  induction d with
  | nil => rfl
  | cons entry rest ih =>
      obtain ⟨k, v⟩ := entry
      by_cases same : k = key
      · simp [mapValues, get?, same]
      · simpa [mapValues, get?, same] using ih

theorem insert_mapValues (f : α → β) (d : Dict α) (key : String) (value : α) :
    (d.insert key value).mapValues f = (d.mapValues f).insert key (f value) := by
  induction d with
  | nil => rfl
  | cons entry rest ih =>
      obtain ⟨k, v⟩ := entry
      by_cases same : k = key
      · simp [mapValues, insert, same]
      · simpa [mapValues, insert, same] using ih

theorem eraseSwap_mapValues (f : α → β) (d : Dict α) (key : String) :
    (d.eraseSwap key).mapValues f = (d.mapValues f).eraseSwap key := by
  induction d with
  | nil => rfl
  | cons entry rest ih =>
      obtain ⟨k, v⟩ := entry
      by_cases same : k = key
      · simp only [mapValues, List.map_cons, eraseSwap, same, ↓reduceIte, List.getLast?_map]
        cases rest.getLast? with
        | none => rfl
        | some last => simp
      · simpa [mapValues, eraseSwap, same] using ih

theorem ofList_mapValues (f : α → β) (entries : List (String × α)) :
    (ofList entries).mapValues f = ofList (entries.map fun entry => (entry.1, f entry.2)) := by
  have written (start : Dict α) :
      (entries.foldl (fun d entry => d.insert entry.1 entry.2) start).mapValues f =
        (entries.map fun entry => (entry.1, f entry.2)).foldl
          (fun d entry => d.insert entry.1 entry.2) (start.mapValues f) := by
    induction entries generalizing start with
    | nil => rfl
    | cons entry rest ih =>
        rw [List.foldl_cons, ih, insert_mapValues]
        rfl
  exact written []

theorem mapKeys_mapValues (f : α → β) (rename : String → String) (d : Dict α) :
    (d.mapKeys rename).mapValues f = (d.mapValues f).mapKeys rename := by
  have entries : (d.map fun entry => (rename entry.1, entry.2)).map (fun entry =>
      (entry.1, f entry.2)) = (d.mapValues f).map fun entry => (rename entry.1, entry.2) := by
    simp only [mapValues, List.map_map]
    rfl
  rw [mapKeys, ofList_mapValues, entries]
  rfl

end Dict

namespace BusinessObject

/-- Maps with the same keys in the same order, the same of them null. -/
def SameShape (left right : BusinessObject) : Prop :=
  ∃ ours theirs : Record, left.root = .map ours ∧ right.root = .map theirs ∧
    ours.mapValues Value.isNull = theirs.mapValues Value.isNull

end BusinessObject

end DataAccess
