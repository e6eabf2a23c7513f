import DataAccess.Document.Collection
import DataAccess.Proofs.Dict
import DataAccess.Proofs.Except

namespace DataAccess.Document

variable {index : List String} {document : Record} {documents : List Record}

/-- Not each of two documents has the other's key. -/
def Apart (index : List String) (left right : Record) : Prop :=
  ¬ (sameKey left right index = true ∧ sameKey right left index = true)

theorem Apart.symm {left right : Record} (apart : Apart index left right) :
    Apart index right left :=
  fun shared => apart shared.symm

theorem apart_of_not_sameKey {left right : Record} (differ : ¬ sameKey left right index = true) :
    Apart index left right :=
  fun shared => differ shared.1

theorem pairwise_apart_of_repetition? (none : repetition? index documents = none) :
    documents.Pairwise (Apart index) := by
  induction documents with
  | nil => exact .nil
  | cons document rest ih =>
      simp only [repetition?] at none
      cases found : rest.find? (sameKey document · index) with
      | some other => simp [found] at none
      | none =>
          simp only [found] at none
          refine .cons ?_ (ih none)
          intro other member
          exact apart_of_not_sameKey (List.find?_eq_none.mp found other member)

theorem pairwise_append_singleton (apart : documents.Pairwise (Apart index))
    (others : ∀ other ∈ documents, Apart index document other) :
    (documents ++ [document]).Pairwise (Apart index) := by
  rw [List.pairwise_append]
  refine ⟨apart, List.pairwise_singleton _ _, ?_⟩
  intro other member added isDocument
  rw [List.mem_singleton.mp isDocument]
  exact (others other member).symm

theorem pairwise_set {position : Nat} (apart : documents.Pairwise (Apart index))
    (others : ∀ other ∈ documents.eraseIdx position, Apart index document other) :
    (documents.set position document).Pairwise (Apart index) := by
  by_cases inside : position < documents.length
  · have rest := apart.sublist (List.eraseIdx_sublist documents position)
    rw [List.eraseIdx_eq_take_drop_succ] at rest others
    obtain ⟨before, after, between⟩ := List.pairwise_append.mp rest
    rw [List.set_eq_take_append_cons_drop, if_pos inside, List.pairwise_append]
    refine ⟨before, .cons ?_ after, ?_⟩
    · intro other member
      exact others other (List.mem_append_right _ member)
    · intro other atOther next atNext
      rcases List.mem_cons.mp atNext with rfl | atNext
      · exact (others other (List.mem_append_left _ atOther)).symm
      · exact between other atOther next atNext
  · rw [List.set_eq_of_length_le (Nat.le_of_not_lt inside)]
    exact apart

theorem ne_of_isOperator {name other : String} (ordinary : isOperator name = false)
    (operator : isOperator other = true) : name ≠ other := fun same =>
  Bool.false_ne_true (ordinary.symm.trans (same ▸ operator))

theorem seed_cons {field : String} {condition : Value} {rest : Record}
    (ordinary : isOperator field = false) (undotted : '.' ∉ field.toList) :
    seed document ((field, condition) :: rest) =
      seed (seedField document field condition) rest := by
  have named : (isOperator field || field.toList.contains '.') = false := by
    simpa [ordinary] using undotted
  rw [seed, if_neg (ne_of_isOperator ordinary (by decide)), named, if_neg Bool.false_ne_true]

/-- A condition on a field that is there adds nothing, whatever it is. -/
theorem seed_present {field : String} {condition : Value} {rest : Record}
    (ordinary : isOperator field = false) (present : Dict.contains document field = true) :
    seed document ((field, condition) :: rest) = seed document rest := by
  have unchanged : seedField document field condition = document := by
    rw [seedField]
    cases literal? condition with
    | some value => exact Dict.insertNew_of_contains present value
    | none => rfl
  rw [seed, if_neg (ne_of_isOperator ordinary (by decide)), unchanged, ite_self]

namespace Collection

variable {name : String} {others : List Record} {indexes : List (List String)}
variable {filter : Record}

/-- A document is accepted just when it shares no key with another one. -/
theorem checkUnique_eq_ok : checkUnique name document others indexes = .ok () ↔
    ∀ index ∈ indexes, ∀ other ∈ others, sameKey document other index = false := by
  induction indexes with
  | nil => simp [checkUnique]
  | cons index rest ih =>
      rw [checkUnique, List.forall_mem_cons, ← ih]
      split
      · rename_i shared
        obtain ⟨other, member, same⟩ := List.any_eq_true.mp shared
        exact iff_of_false nofun fun free => Bool.false_ne_true ((free.1 other member).symm.trans same)
      · rename_i free
        rw [Bool.not_eq_true, List.any_eq_false] at free
        exact (and_iff_right fun other member => Bool.eq_false_iff.mpr (free other member)).symm

theorem apart_of_checkUnique
    (accepted : checkUnique name document others indexes = .ok ()) :
    ∀ index ∈ indexes, ∀ other ∈ others, Apart index document other := by
  intro index member other atOther
  exact apart_of_not_sameKey (by simp [checkUnique_eq_ok.mp accepted index member other atOther])

/-- What is left of a collection are documents that it had, in their order. -/
theorem remove_sublist {many : Bool} {count : Nat} {kept : List Record}
    (removed : remove filter many documents = .ok (count, kept)) : kept.Sublist documents := by
  induction documents generalizing count kept with
  | nil =>
      simp only [remove, Except.ok.injEq, Prod.mk.injEq] at removed
      exact removed.2 ▸ .slnil
  | cons document rest ih =>
      obtain ⟨holds, _, removed⟩ := bind_eq_ok.mp removed
      cases holds with
      | true =>
          cases many with
          | true =>
              obtain ⟨⟨_, others⟩, removedRest, result⟩ := bind_eq_ok.mp removed
              cases result
              exact (ih removedRest).cons document
          | false =>
              cases removed
              exact List.sublist_cons_self document rest
      | false =>
          obtain ⟨⟨_, others⟩, removedRest, result⟩ := bind_eq_ok.mp removed
          cases result
          exact (ih removedRest).cons_cons document

section

variable {test : Record → Bool}
variable (decides : ∀ document ∈ documents, matches? document filter = .ok (test document))

include decides

theorem matching_eq : matching filter documents = .ok (documents.filter test) := by
  induction documents with
  | nil => rfl
  | cons document rest ih =>
      have tail := ih fun other later => decides other (List.mem_cons_of_mem _ later)
      simp only [matching, decides document List.mem_cons_self, tail, List.filter_cons]
      cases test document <;> rfl

theorem position?_eq : position? filter documents = .ok (documents.findIdx? test) := by
  induction documents with
  | nil => rfl
  | cons document rest ih =>
      have tail := ih fun other later => decides other (List.mem_cons_of_mem _ later)
      simp only [position?, decides document List.mem_cons_self, tail, List.findIdx?_cons]
      cases test document <;> rfl

theorem remove_one_eq :
    remove filter false documents = .ok ((documents.any test).toNat, documents.eraseP test) := by
  induction documents with
  | nil => rfl
  | cons document rest ih =>
      have tail := ih fun other later => decides other (List.mem_cons_of_mem _ later)
      simp only [remove, decides document List.mem_cons_self, tail, List.any_cons, List.eraseP_cons]
      cases test document <;> rfl

end

end Collection

end DataAccess.Document
