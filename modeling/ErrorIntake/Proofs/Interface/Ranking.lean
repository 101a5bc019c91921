import ErrorIntake.Interface.Registry
import Mathlib.Data.List.Count

/-!
# The order of descriptors

A registry puts every new descriptor in its place among the others, and what stands there says
nothing of when it came.  `IsRanking` says how descriptors have to stand: the more important first,
and those of one score in the order in which they were registered.  Only one list does both, so it
does not matter whether it comes about by placing, by sorting after every registration, or by sorting
once at the end.
-/

namespace ErrorIntake.Interface

namespace Descriptor

/-- The first descriptor is at least as important as the second. -/
def isAsImportant (a b : Descriptor) : Bool := b.score ≤ a.score

theorem isAsImportant_trans (a b c : Descriptor) (first : a.isAsImportant b)
    (second : b.isAsImportant c) : a.isAsImportant c := by
  simp only [isAsImportant, decide_eq_true_eq] at first second ⊢
  exact Int.le_trans second first

theorem isAsImportant_total (a b : Descriptor) : a.isAsImportant b || b.isAsImportant a := by
  simp only [isAsImportant, Bool.or_eq_true, decide_eq_true_eq]
  exact Int.le_total _ _

/-- The descriptors of one score, as they stand. -/
def ofScore (score : Int) (descriptors : List Descriptor) : List Descriptor :=
  descriptors.filter fun d => d.score = score

theorem ofScore_append (score : Int) (before after : List Descriptor) :
    ofScore score (before ++ after) = ofScore score before ++ ofScore score after :=
  List.filter_append ..

theorem ofScore_cons (score : Int) (d : Descriptor) (rest : List Descriptor) :
    ofScore score (d :: rest) = ofScore score [d] ++ ofScore score rest :=
  ofScore_append score [d] rest

theorem ofScore_cons_self (d : Descriptor) (rest : List Descriptor) :
    ofScore d.score (d :: rest) = d :: ofScore d.score rest :=
  List.filter_cons_of_pos (by simp)

theorem ofScore_ofScore (score : Int) (descriptors : List Descriptor) :
    ofScore score (ofScore score descriptors) = ofScore score descriptors := by
  simp [ofScore]

theorem ofScore_eq_nil_iff {score : Int} {descriptors : List Descriptor} :
    ofScore score descriptors = [] ↔ ∀ d ∈ descriptors, d.score ≠ score := by
  simp [ofScore, List.filter_eq_nil_iff]

end Descriptor

open Descriptor (isAsImportant ofScore)

/-- Descriptors stand by importance, and those of one score in the order in which they were
    registered. -/
structure IsRanking (registered ranked : List Descriptor) : Prop where
  ordered : ranked.Pairwise fun a b => b.score ≤ a.score
  inTurn : ∀ score, ofScore score ranked = ofScore score registered

namespace IsRanking

variable {registered ranked ranked' : List Descriptor}

/-- Every registered descriptor stands there, as often as it was registered. -/
theorem perm (ranks : IsRanking registered ranked) : ranked.Perm registered := by
  classical
  refine List.perm_iff_count.2 fun d => ?_
  have kept (l : List Descriptor) : (ofScore d.score l).count d = l.count d :=
    List.count_filter (by simp)
  rw [← kept ranked, ranks.inTurn, kept registered]

theorem eq_nil (ranks : IsRanking [] ranked) : ranked = [] := ranks.perm.eq_nil

/-- What stands first is the first registered descriptor of the highest score, so there is only one
    ranking. -/
theorem eq (ranks : IsRanking registered ranked) (ranks' : IsRanking registered ranked') :
    ranked = ranked' := by
  have inTurn (score : Int) : ofScore score ranked = ofScore score ranked' :=
    (ranks.inTurn score).trans (ranks'.inTurn score).symm
  have ordered := ranks.ordered
  have ordered' := ranks'.ordered
  clear ranks ranks'
  induction ranked generalizing ranked' with
  | nil =>
    exact (eq_nil ⟨ordered', fun score => (inTurn score).symm⟩).symm
  | cons d rest ih =>
    cases ranked' with
    | nil =>
      have none := inTurn d.score
      rw [Descriptor.ofScore_cons_self] at none
      cases none
    | cons d' rest' =>
      obtain ⟨below, orderedRest⟩ := List.pairwise_cons.1 ordered
      obtain ⟨below', orderedRest'⟩ := List.pairwise_cons.1 ordered'
      have same : d.score = d'.score := by
        have perm : (d :: rest).Perm (d' :: rest') := perm ⟨ordered, inTurn⟩
        have le : d'.score ≤ d.score := by
          rcases List.mem_cons.1 (perm.mem_iff.2 List.mem_cons_self) with rfl | member
          · exact Int.le_refl _
          · exact below d' member
        have ge : d.score ≤ d'.score := by
          rcases List.mem_cons.1 (perm.mem_iff.1 List.mem_cons_self) with rfl | member
          · exact Int.le_refl _
          · exact below' d member
        exact Int.le_antisymm ge le
      have first := inTurn d.score
      rw [Descriptor.ofScore_cons_self, same, Descriptor.ofScore_cons_self] at first
      obtain ⟨rfl, -⟩ := List.cons.inj first
      refine congrArg (d :: ·) (ih (fun score => ?_) orderedRest orderedRest')
      have here := inTurn score
      rw [Descriptor.ofScore_cons, Descriptor.ofScore_cons score _ rest'] at here
      exact List.append_cancel_left here

end IsRanking

namespace Registry

variable {registered descriptors : List Descriptor}

/-- A descriptor in its place comes behind all others of its score. -/
theorem ofScore_place (d : Descriptor) (ordered : descriptors.Pairwise fun a b => b.score ≤ a.score)
    (score : Int) : ofScore score (place d descriptors) = ofScore score (descriptors ++ [d]) := by
  induction descriptors with
  | nil => rfl
  | cons first rest ih =>
    obtain ⟨below, orderedRest⟩ := List.pairwise_cons.1 ordered
    rw [place]
    split
    · rw [Descriptor.ofScore_cons, ih orderedRest, List.cons_append,
        ← Descriptor.ofScore_cons]
    · next above =>
      have above : first.score < d.score := Int.not_le.1 above
      rw [Descriptor.ofScore_cons, Descriptor.ofScore_append]
      by_cases own : d.score = score
      · -- All that stands behind the new descriptor has a lower score.
        have none : ofScore score (first :: rest) = [] := by
          refine Descriptor.ofScore_eq_nil_iff.2 fun e member => ?_
          rcases List.mem_cons.1 member with rfl | member
          · omega
          · have := below e member
            omega
        rw [none, List.append_nil, List.nil_append]
      · have other : ofScore score [d] = [] :=
          Descriptor.ofScore_eq_nil_iff.2 (by simpa using own)
        rw [other, List.append_nil, List.nil_append]

theorem isRanking_register {r : Registry} (ranks : IsRanking registered r.descriptors)
    (d : Descriptor) : IsRanking (registered ++ [d]) (r.register d).descriptors where
  ordered := (r.register d).ordered
  inTurn score := by
    rw [register, ofScore_place d r.ordered, Descriptor.ofScore_append, ranks.inTurn,
      ← Descriptor.ofScore_append]

/-- Whatever is registered, in any order, is ranked. -/
theorem isRanking_foldl_register (calls : List Descriptor) {r : Registry}
    (ranks : IsRanking registered r.descriptors) :
    IsRanking (registered ++ calls) (calls.foldl register r).descriptors := by
  induction calls generalizing registered r with
  | nil => rwa [List.append_nil]
  | cons d rest ih =>
    have next := ih (isRanking_register ranks d)
    rwa [List.append_assoc, List.singleton_append] at next

theorem isRanking_ofList (registered : List Descriptor) :
    IsRanking registered (ofList registered).descriptors :=
  isRanking_foldl_register registered (r := empty) ⟨.nil, fun _ => rfl⟩

/-- A stable sort ranks. -/
theorem isRanking_mergeSort (registered : List Descriptor) :
    IsRanking registered (registered.mergeSort isAsImportant) where
  ordered := by
    have sorted := List.pairwise_mergeSort Descriptor.isAsImportant_trans
      Descriptor.isAsImportant_total registered
    simpa only [isAsImportant, decide_eq_true_eq] using sorted
  inTurn score := by
    have perm : (ofScore score (registered.mergeSort isAsImportant)).Perm
        (ofScore score registered) := (List.mergeSort_perm _ _).filter _
    have alike : (ofScore score registered).Pairwise fun a b => a.isAsImportant b := by
      refine List.pairwise_of_forall_mem_list fun a isHere b isThere => ?_
      have hereScore : a.score = score := by simpa using (List.mem_filter.1 isHere).2
      have thereScore : b.score = score := by simpa using (List.mem_filter.1 isThere).2
      simp [isAsImportant, hereScore, thereScore]
    have inside : (ofScore score (ofScore score registered)).Sublist
        (ofScore score (registered.mergeSort isAsImportant)) :=
      (List.sublist_mergeSort Descriptor.isAsImportant_trans Descriptor.isAsImportant_total alike
        List.filter_sublist).filter _
    rw [Descriptor.ofScore_ofScore] at inside
    exact (inside.eq_of_length perm.length_eq.symm).symm

/-- Placing a descriptor is putting it behind all others and sorting stably. -/
theorem register_eq_mergeSort (r : Registry) (d : Descriptor) :
    (r.register d).descriptors = (r.descriptors ++ [d]).mergeSort isAsImportant :=
  (isRanking_register ⟨r.ordered, fun _ => rfl⟩ d).eq (isRanking_mergeSort _)

/-- Sorting after every registration. -/
def sortedEachTime (descriptors calls : List Descriptor) : List Descriptor :=
  calls.foldl (fun sorted d => (sorted ++ [d]).mergeSort isAsImportant) descriptors

theorem foldl_register_eq_sortedEachTime (calls : List Descriptor) (r : Registry) :
    (calls.foldl register r).descriptors = sortedEachTime r.descriptors calls := by
  induction calls generalizing r with
  | nil => rfl
  | cons d rest ih =>
    rw [List.foldl_cons, ih, register_eq_mergeSort]
    rfl

/-- A registry that began with some descriptors, perhaps none, stands after any further registrations
    as if all its descriptors had been sorted once, and so it does if it is sorted after each of
    them.  It has every descriptor as often as it was registered, by descending score, and those of
    one score in the order of their registration. -/
theorem sorted_once_for_all {start : Registry} {founding : List Descriptor}
    (founded : start = ofList founding) (calls : List Descriptor) :
    (calls.foldl register start).descriptors = (founding ++ calls).mergeSort isAsImportant ∧
    (calls.foldl register start).descriptors = sortedEachTime start.descriptors calls ∧
    (calls.foldl register start).descriptors.Perm (founding ++ calls) ∧
    (calls.foldl register start).descriptors.Pairwise (fun a b => b.score ≤ a.score) ∧
    ∀ score, ofScore score (calls.foldl register start).descriptors =
      ofScore score (founding ++ calls) := by
  subst founded
  have ranks := isRanking_foldl_register calls (isRanking_ofList founding)
  exact ⟨ranks.eq (isRanking_mergeSort _), foldl_register_eq_sortedEachTime calls _, ranks.perm,
    ranks.ordered, ranks.inTurn⟩

/-- Descriptors with the extreme scores of 32 bits and with an id and a score that are there
    already. -/
def latecomers : List Descriptor :=
  [⟨"last", [], -2147483648, .ofKind .request⟩,
   ⟨"sentry.interfaces.Stacktrace", ["trace"], 1950, .ofKind .exception⟩,
   ⟨"first", [], 2147483647, .ofKind .request⟩,
   ⟨"last", [], -2147483648, .ofKind .stacktrace⟩]

theorem sorted_once_for_all_latecomers :
    (latecomers.foldl register standard).descriptors.Pairwise (fun a b => b.score ≤ a.score) ∧
    ofScore 1950 (latecomers.foldl register standard).descriptors =
      [⟨"sentry.interfaces.Stacktrace", ["stacktrace"], 1950, .ofKind .stacktrace⟩,
       ⟨"sentry.interfaces.Stacktrace", ["trace"], 1950, .ofKind .exception⟩] ∧
    ofScore (-2147483648) (latecomers.foldl register standard).descriptors =
      [⟨"last", [], -2147483648, .ofKind .request⟩,
       ⟨"last", [], -2147483648, .ofKind .stacktrace⟩] := by
  obtain ⟨-, -, -, ordered, inTurn⟩ := sorted_once_for_all
    (rfl : standard = ofList [.ofKind .exception, .ofKind .stacktrace, .ofKind .request]) latecomers
  exact ⟨ordered, inTurn 1950, inTurn (-2147483648)⟩

end Registry

end ErrorIntake.Interface
