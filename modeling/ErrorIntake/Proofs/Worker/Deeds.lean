import ErrorIntake.Worker.Shift
import Mathlib.Data.List.Basic
import Mathlib.Tactic.Tauto

/-!
# What workers do

The steps of a worker as deeds, and which deeds can follow each other.  A worker leaves an attempt
only at its end, begins one only if it was just sent on, and once it obeys the word to stop, it has
at most the rest of one attempt to make.  All of it is read off `Leads`, by induction on the deeds.
-/

namespace ErrorIntake.Worker

open Calendar (Reading)
open Ledger (EventStore)
open Queue (QueueBackend)

/-! ## What a worker does -/

/-- What a worker does in one step. -/
inductive Deed
  /-- It asks whether it was told to stop, before an attempt. -/
  | asked (toldToStop : Bool)
  /-- It makes the next call of an attempt, which leads to this. -/
  | called (a : Attempt) (p : Progress Attempt Attempted)
  /-- It asks whether it was told to stop, after a rest. -/
  | rested (toldToStop : Bool)

namespace Deed

/-- Where a worker stands that does this. -/
def place : Deed → Shift
  | asked _ => .asking
  | called a _ => .attempting a
  | rested _ => .resting

/-- Where a worker stands that did this. -/
def next : Deed → Shift
  | asked toldToStop => if toldToStop then .resting else .attempting .start
  | called _ (.more a) => .attempting a
  | called _ (.done result) => (Shift.afterAttempt result).1
  | rested toldToStop => if toldToStop then .stopped else .asking

/-- The deed is a call of queue or store. -/
def isCall : Deed → Bool
  | called .. => true
  | _ => false

/-- The worker was not told to stop and is to begin an attempt. -/
def isGo : Deed → Bool
  | asked toldToStop => !toldToStop
  | _ => false

/-- The deed is not a question whose answer was to go on. -/
def obeys : Deed → Bool
  | asked toldToStop => toldToStop
  | called .. => true
  | rested toldToStop => toldToStop

/-- What the deed delivers to the worker. -/
def delivered? : Deed → Option Delivery
  | called _ (.more (.grouping d)) => some d
  | _ => none

end Deed

namespace Shift

variable {σ τ : Type} [QueueBackend σ] [EventStore τ]

/-- What a worker does next, if it has not stopped. -/
def deed? (q : EventQueue) (hooks : List Hook) (toldToStop : Bool) (now : Reading) (w : Shift)
    (s : σ) (t : τ) : Option Deed :=
  match w with
  | .asking => some (.asked toldToStop)
  | .attempting a => some (.called a (a.step q hooks now s t).1)
  | .resting => some (.rested toldToStop)
  | .stopped => none

/-- The step of a worker is its deed. -/
theorem step_of_deed? {q : EventQueue} {hooks : List Hook} {toldToStop : Bool} {now : Reading}
    {w : Shift} {s : σ} {t : τ} {d : Deed} (does : w.deed? q hooks toldToStop now s t = some d) :
    d.place = w ∧ (w.step q hooks toldToStop now s t).1 = d.next := by
  cases w with
  | asking =>
    cases does
    exact ⟨rfl, rfl⟩
  | attempting a =>
    cases does
    refine ⟨rfl, ?_⟩
    simp only [step]
    match a.step q hooks now s t with
    | (.more next, _, _, _) => rfl
    | (.done result, _, _, _) => rfl
  | resting =>
    cases does
    exact ⟨rfl, rfl⟩
  | stopped => cases does

/-- A worker in an attempt does to queue and store what the attempt does. -/
theorem step_attempting (q : EventQueue) (hooks : List Hook) (toldToStop : Bool) (now : Reading)
    (a : Attempt) (s : σ) (t : τ) :
    ((attempting a).step q hooks toldToStop now s t).2.1 = (a.step q hooks now s t).2.1 ∧
    ((attempting a).step q hooks toldToStop now s t).2.2.1 = (a.step q hooks now s t).2.2.1 := by
  simp only [step]
  match a.step q hooks now s t with
  | (.more next, _, _, _) => exact ⟨rfl, rfl⟩
  | (.done result, _, _, _) => exact ⟨rfl, rfl⟩

end Shift

/-- These deeds lead a worker from one place to another. -/
def Leads : Shift → List Deed → Shift → Prop
  | w, [], w' => w' = w
  | w, d :: rest, w' => d.place = w ∧ Leads d.next rest w'

theorem leads_append {w w' : Shift} {first rest : List Deed} :
    Leads w (first ++ rest) w' ↔ ∃ v, Leads w first v ∧ Leads v rest w' := by
  induction first generalizing w with
  | nil => simp [Leads]
  | cons d first ih =>
    rw [List.cons_append, Leads, ih]
    simp only [Leads]
    tauto

/-- An attempt that stands here is carried on by these deeds, and either ends among them or is what
    the worker is at. -/
inductive Carried : Attempt → List Deed → Shift → Prop
  | pending (a : Attempt) : Carried a [] (.attempting a)
  | onward (a b : Attempt) (rest : List Deed) (w : Shift) (further : Carried b rest w) :
      Carried a (.called a (.more b) :: rest) w
  | ended (a : Attempt) (result : Attempted) (rest : List Deed) (w : Shift) :
      Carried a (.called a (.done result) :: rest) w

/-- A worker leaves an attempt only at its end. -/
theorem Leads.carried {a : Attempt} {deeds : List Deed} {w : Shift}
    (path : Leads (.attempting a) deeds w) : Carried a deeds w := by
  induction deeds generalizing a with
  | nil =>
    cases path
    exact .pending a
  | cons d rest ih =>
    obtain ⟨here, further⟩ := path
    cases d with
    | asked toldToStop => cases here
    | rested toldToStop => cases here
    | called b p =>
      cases here
      cases p with
      | more next => exact .onward a next rest w (ih further)
      | done result => exact .ended a result rest w

/-- A worker that has stopped has ended what it began. -/
theorem Carried.ended_of_stopped {a : Attempt} {deeds : List Deed}
    (carried : Carried a deeds .stopped) : ∃ b result, .called b (.done result) ∈ deeds := by
  generalize last : Shift.stopped = w at carried
  induction carried with
  | pending => cases last
  | onward a b rest w _ ih =>
    obtain ⟨c, result, member⟩ := ih last
    exact ⟨c, result, List.mem_cons_of_mem _ member⟩
  | ended a result rest w => exact ⟨a, result, List.mem_cons_self⟩

/-! ## How many attempts are begun -/

/-- How many attempts are begun among some deeds, the first of which begins one if it is a call and
    the worker was to begin one. -/
def begun : (go : Bool) → List Deed → Nat
  | _, [] => 0
  | go, d :: rest => (if go && d.isCall then 1 else 0) + begun d.isGo rest

theorem begun_append (go : Bool) (first rest : List Deed) :
    begun go (first ++ rest) =
      begun go first + begun ((first.getLast?.map Deed.isGo).getD go) rest := by
  induction first generalizing go with
  | nil => simp [begun]
  | cons d first ih =>
    rw [List.cons_append, begun, begun, ih, Nat.add_assoc]
    cases first with
    | nil => rfl
    | cons e first =>
      rw [List.getLast?_cons_cons]
      cases last : (e :: first).getLast? with
      | none => simp at last
      | some f => rfl

/-- Who is not to begin an attempt begins none. -/
theorem begun_eq_zero {deeds : List Deed} (none : ∀ d ∈ deeds, d.isGo = false) :
    begun false deeds = 0 := by
  induction deeds with
  | nil => rfl
  | cons d rest ih =>
    rw [begun, none d List.mem_cons_self, ih fun e member => none e (List.mem_cons_of_mem _ member)]
    rfl

/-- Who is to begin an attempt and no other begins one at most. -/
theorem begun_le_one {deeds : List Deed} (none : ∀ d ∈ deeds, d.isGo = false) (go : Bool) :
    begun go deeds ≤ 1 := by
  cases deeds with
  | nil => exact Nat.zero_le 1
  | cons d rest =>
    rw [begun, none d List.mem_cons_self,
      begun_eq_zero fun e member => none e (List.mem_cons_of_mem _ member)]
    split
    · exact Nat.le_refl 1
    · exact Nat.zero_le 1

theorem Deed.isGo_of_obeys {d : Deed} (obeys : d.obeys) : d.isGo = false := by
  cases d with
  | asked toldToStop =>
    cases toldToStop with
    | false => cases obeys
    | true => rfl
  | called a p => rfl
  | rested toldToStop => rfl

/-! ## The last deeds -/

/-- A worker that has stopped does nothing. -/
theorem Leads.eq_nil {w : Shift} {deeds : List Deed} (path : Leads .stopped deeds w) :
    deeds = [] := by
  cases deeds with
  | nil => rfl
  | cons d rest =>
    obtain ⟨here, -⟩ := path
    cases d <;> cases here

/-- A worker that rests and was told to stop asks once more. -/
theorem Leads.resting {w : Shift} {deeds : List Deed} (path : Leads .resting deeds w)
    (obeys : ∀ d ∈ deeds, d.obeys) : deeds.Sublist [.rested true] := by
  cases deeds with
  | nil => exact List.nil_sublist _
  | cons d rest =>
    obtain ⟨here, further⟩ := path
    have heard := obeys d List.mem_cons_self
    cases d with
    | asked toldToStop => cases here
    | called a p => cases here
    | rested toldToStop =>
      cases heard
      rw [Leads.eq_nil further]

/-- What is left to do for a worker that is between two attempts and was told to stop. -/
theorem Leads.tests {w w' : Shift} {deeds : List Deed} (path : Leads w deeds w')
    (obeys : ∀ d ∈ deeds, d.obeys) (between : ∀ a, w ≠ .attempting a) :
    deeds.Sublist [.asked true, .rested true] := by
  cases w with
  | stopped =>
    rw [path.eq_nil]
    exact List.nil_sublist _
  | resting => exact (path.resting obeys).trans (List.sublist_cons_self _ _)
  | attempting a => exact absurd rfl (between a)
  | asking =>
    cases deeds with
    | nil => exact List.nil_sublist _
    | cons d rest =>
      obtain ⟨here, further⟩ := path
      have heard := obeys d List.mem_cons_self
      cases d with
      | called a p => cases here
      | rested toldToStop => cases here
      | asked toldToStop =>
        cases heard
        have rest := Leads.resting further fun e member => obeys e (List.mem_cons_of_mem _ member)
        exact rest.cons_cons _

/-- All but the last of these calls lead to another call. -/
def IsOneAttempt (calls : List Deed) : Prop :=
  (∀ c ∈ calls, c.isCall) ∧ ∀ c ∈ calls.dropLast, ∃ a b, c = .called a (.more b)

/-- A worker that was told to stop goes on with its attempt, if it is in one, asks, and stops. -/
theorem Leads.winds_up {w w' : Shift} {deeds : List Deed} (path : Leads w deeds w')
    (obeys : ∀ d ∈ deeds, d.obeys) :
    ∃ calls tests, deeds = calls ++ tests ∧ IsOneAttempt calls ∧
      tests.Sublist [.asked true, .rested true] := by
  induction deeds generalizing w with
  | nil => exact ⟨[], [], rfl, ⟨by simp, by simp⟩, List.nil_sublist _⟩
  | cons d rest ih =>
    by_cases during : ∃ a, w = .attempting a
    · obtain ⟨a, rfl⟩ := during
      obtain ⟨here, further⟩ := path
      have later : ∀ e ∈ rest, e.obeys := fun e member => obeys e (List.mem_cons_of_mem _ member)
      cases d with
      | asked toldToStop => cases here
      | rested toldToStop => cases here
      | called b p =>
        cases here
        cases p with
        | more next =>
          obtain ⟨calls, tests, rfl, ⟨all, chain⟩, few⟩ := ih further later
          refine ⟨.called a (.more next) :: calls, tests, rfl, ⟨?_, ?_⟩, few⟩
          · intro c member
            rcases List.mem_cons.1 member with rfl | member
            · rfl
            · exact all c member
          · intro c member
            cases calls with
            | nil => cases member
            | cons e calls =>
              rw [List.dropLast_cons_cons] at member
              rcases List.mem_cons.1 member with rfl | member
              · exact ⟨a, next, rfl⟩
              · exact chain c member
        | done result =>
          refine ⟨[.called a (.done result)], rest, rfl, ⟨by simp [Deed.isCall], by simp⟩, ?_⟩
          exact further.tests later (Shift.afterAttempt_ne_attempting result)
    · refine ⟨[], d :: rest, rfl, ⟨by simp, by simp⟩, path.tests obeys fun a same => ?_⟩
      exact during ⟨a, same⟩

end ErrorIntake.Worker
