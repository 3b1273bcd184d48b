-- SUMMARY: Results that hold unless something failed before.
import Mathlib
import Pushdown.Failure

/-!
# Outcomes

A computation that runs through a list and stops at the first failure gives its result exactly when
the list has no failure in it. `settle` says this for a failure that may have been found; the laws
below carry it through sequences of such computations, the first failure always winning. `Ends` leaves
open whether a computation fails, but not with what, nor what it gives if it does not.
-/

namespace Pushdown

variable {β γ : Type}

/-- The value, unless there is a failure. -/
def settle (failure? : Option Failure) (value : β) : Except Failure β :=
  match failure? with
  | some e => .error e
  | none => .ok value

@[simp] theorem settle_none (value : β) : settle none value = .ok value := rfl

@[simp] theorem settle_some (e : Failure) (value : β) : settle (some e) value = .error e := rfl

theorem settle_eq_error {failure? : Option Failure} {value : β} {e : Failure} :
    settle failure? value = .error e ↔ failure? = some e := by
  cases failure? with
  | none => simp
  | some e' => simp

theorem map_settle (f : β → γ) (failure? : Option Failure) (value : β) :
    (settle failure? value).map f = settle failure? (f value) := by
  cases failure? <;> rfl

/-- A second computation is only run when the first did not fail. -/
theorem settle_bind {first? second? : Option Failure} {value : β} {next : β → Except Failure γ}
    {result : γ} (h : next value = settle second? result) :
    (settle first? value >>= next) = settle (first?.or second?) result := by
  cases first? with
  | none => exact h
  | some e => rfl

theorem settle_bind_pure (f : β → γ) (failure? : Option Failure) (value : β) :
    (settle failure? value >>= fun result => pure (f result)) = settle failure? (f value) := by
  cases failure? <;> rfl

/-- A traversal gives all its results, or the failure of the first entry that has one. -/
theorem mapM_eq_settle {α : Type} {f : α → Except Failure β} {failure? : α → Option Failure}
    {value : α → β} {entries : List α}
    (h : ∀ entry ∈ entries, f entry = settle (failure? entry) (value entry)) :
    entries.mapM f = settle (entries.findSome? failure?) (entries.map value) := by
  induction entries with
  | nil => rfl
  | cons entry entries ih =>
    obtain ⟨hentry, hentries⟩ := List.forall_mem_cons.mp h
    rw [List.mapM_cons, hentry, ih hentries, List.findSome?_cons]
    cases failure? entry with
    | some e => rfl
    | none => cases entries.findSome? failure? <;> rfl

/-- The first find in lists put together is the first find of the first list that has one. -/
theorem findSome?_flatMap {α : Type} (f : β → Option γ) (parts : α → List β) (entries : List α) :
    (entries.flatMap parts).findSome? f = entries.findSome? fun entry => (parts entry).findSome? f := by
  induction entries with
  | nil => rfl
  | cons entry entries ih =>
    rw [List.flatMap_cons, List.findSome?_append, List.findSome?_cons, ih]
    cases (parts entry).findSome? f <;> rfl

/-- A sequence succeeds when both of its parts do. -/
theorem bind_eq_ok {first : Except Failure β} {next : β → Except Failure γ} {result : γ} :
    (first >>= next) = .ok result ↔ ∃ value, first = .ok value ∧ next value = .ok result := by
  cases first <;> simp [bind, Except.bind]

/-- A sequence fails when one of its parts does. -/
theorem bind_eq_error {first : Except Failure β} {next : β → Except Failure γ} {e : Failure} :
    (first >>= next) = .error e ↔
      first = .error e ∨ ∃ value, first = .ok value ∧ next value = .error e := by
  cases first <;> simp [bind, Except.bind]

/-- A traversal succeeds when every entry does. -/
theorem mapM_eq_ok {α : Type} {f : α → Except Failure β} {entries : List α} {results : List β} :
    entries.mapM f = .ok results ↔ List.Forall₂ (fun entry result => f entry = .ok result) entries results := by
  induction entries generalizing results with
  | nil => cases results <;> simp [pure, Except.pure]
  | cons entry entries ih =>
    simp only [List.mapM_cons, bind_eq_ok]
    constructor
    · rintro ⟨value, hvalue, rest, hrest, h⟩
      cases h
      exact .cons hvalue (ih.mp hrest)
    · intro h
      cases h with
      | cons hvalue hrest => exact ⟨_, hvalue, _, ih.mpr hrest, rfl⟩

/-- The results of a traversal are those of its entries. -/
theorem mem_of_mapM_eq_ok {α : Type} {f : α → Except Failure β} {entries : List α} {results : List β}
    (h : entries.mapM f = .ok results) {result : β} :
    result ∈ results ↔ ∃ entry ∈ entries, f entry = .ok result := by
  have hall := mapM_eq_ok.mp h
  clear h
  induction hall with
  | nil => simp
  | cons hentry _ ih => simp [ih, hentry, eq_comm]

/-- A run through a list succeeds when every entry does. -/
theorem forM_eq_ok {α : Type} {f : α → Except Failure Unit} {entries : List α} :
    entries.forM f = .ok () ↔ ∀ entry ∈ entries, f entry = .ok () := by
  induction entries with
  | nil => simp [pure, Except.pure]
  | cons entry entries ih =>
    show (f entry >>= fun _ => entries.forM f) = .ok () ↔ _
    simp only [bind_eq_ok, ih, List.forall_mem_cons, Unique.exists_iff]

/-! ## Failures without the results -/

/-- The failure, if there is one. -/
def failureOf? : Except Failure β → Option Failure
  | .error e => some e
  | .ok _ => none

@[simp] theorem failureOf?_ok (value : β) : failureOf? (.ok value) = none := rfl

@[simp] theorem failureOf?_error (e : Failure) : failureOf? (.error e : Except Failure β) = some e := rfl

theorem failureOf?_eq_some {outcome : Except Failure β} {e : Failure} :
    failureOf? outcome = some e ↔ outcome = .error e := by
  cases outcome <;> simp

theorem failureOf?_eq_none {outcome : Except Failure β} :
    failureOf? outcome = none ↔ ∃ value, outcome = .ok value := by
  cases outcome <;> simp

/-- A second computation that fails in the same way whatever it is given. -/
theorem failureOf?_bind {first : Except Failure β} {next : β → Except Failure γ} {second? : Option Failure}
    (h : ∀ value, failureOf? (next value) = second?) :
    failureOf? (first >>= next) = (failureOf? first).or second? := by
  cases first with
  | error e => rfl
  | ok value => exact h value

theorem failureOf?_map {α : Type} (outcome : Except Failure α) (f : α → β) :
    failureOf? (outcome >>= fun value => pure (f value)) = failureOf? outcome := by
  cases outcome <;> rfl

/-- A traversal fails as the first of its entries that does. -/
theorem failureOf?_mapM {α : Type} (f : α → Except Failure β) (entries : List α) :
    failureOf? (entries.mapM f) = entries.findSome? fun entry => failureOf? (f entry) := by
  induction entries with
  | nil => rfl
  | cons entry entries ih =>
    rw [List.mapM_cons, List.findSome?_cons, failureOf?_bind fun _ => failureOf?_map _ _, ih]
    cases f entry <;> rfl

theorem failureOf?_forM {α : Type} (f : α → Except Failure Unit) (entries : List α) :
    failureOf? (entries.forM f) = entries.findSome? fun entry => failureOf? (f entry) := by
  induction entries with
  | nil => rfl
  | cons entry entries ih =>
    show failureOf? (f entry >>= fun _ => entries.forM f) = _
    rw [List.findSome?_cons, failureOf?_bind fun _ => ih]
    cases f entry <;> rfl

/-- A traversal has results if every entry has one. -/
theorem exists_mapM {α : Type} {f : α → Except Failure β} {entries : List α} :
    (∃ results, entries.mapM f = .ok results) ↔ ∀ entry ∈ entries, ∃ result, f entry = .ok result := by
  rw [← failureOf?_eq_none, failureOf?_mapM, List.findSome?_eq_none_iff]
  exact forall₂_congr fun entry _ => failureOf?_eq_none

/-! ## Results that hold unless something permitted failed -/

/-- The outcome is a value of which the statement holds, or a failure that is permitted. -/
inductive Ends (permitted : Failure → Prop) (holds : β → Prop) : Except Failure β → Prop
  | ok {value : β} (h : holds value) : Ends permitted holds (.ok value)
  | error {e : Failure} (he : permitted e) : Ends permitted holds (.error e)

namespace Ends

variable {permitted : Failure → Prop} {holds : β → Prop} {holds' : γ → Prop} {outcome : Except Failure β}

theorem of_ok {value : β} (h : Ends permitted holds (.ok value)) : holds value := by
  cases h with
  | ok h => exact h

theorem of_error {e : Failure} (h : Ends permitted holds (.error e)) : permitted e := by
  cases h with
  | error he => exact he

/-- Where no failure is permitted, there is a value. -/
theorem exists_ok (h : Ends (fun _ => False) holds outcome) : ∃ value, outcome = .ok value ∧ holds value := by
  cases h with
  | ok h => exact ⟨_, rfl, h⟩
  | error he => exact he.elim

theorem imp {permitted' : Failure → Prop} {holds' : β → Prop} (h : Ends permitted holds outcome)
    (hpermitted : ∀ e, permitted e → permitted' e) (hholds : ∀ value, holds value → holds' value) :
    Ends permitted' holds' outcome := by
  cases h with
  | ok h => exact .ok (hholds _ h)
  | error he => exact .error (hpermitted _ he)

theorem mono {holds' : β → Prop} (h : Ends permitted holds outcome) (hmono : ∀ value, holds value → holds' value) :
    Ends permitted holds' outcome :=
  h.imp (fun _ => id) hmono

theorem bind {next : β → Except Failure γ} (h : Ends permitted holds outcome)
    (hnext : ∀ value, holds value → Ends permitted holds' (next value)) :
    Ends permitted holds' (outcome >>= next) := by
  cases h with
  | ok h => exact hnext _ h
  | error he => exact .error he

theorem map {f : β → γ} (h : Ends permitted holds outcome) (hmap : ∀ value, holds value → holds' (f value)) :
    Ends permitted holds' (outcome.map f) := by
  cases h with
  | ok h => exact .ok (hmap _ h)
  | error he => exact .error he

/-- A traversal gives a result for each entry, in the order of the entries. -/
theorem mapM {α : Type} {f : α → Except Failure β} {given : α → β → Prop} {entries : List α}
    (h : ∀ entry ∈ entries, Ends permitted (given entry) (f entry)) :
    Ends permitted (List.Forall₂ given entries) (entries.mapM f) := by
  induction entries with
  | nil => exact .ok .nil
  | cons entry entries ih =>
    obtain ⟨hentry, hentries⟩ := List.forall_mem_cons.mp h
    rw [List.mapM_cons]
    apply hentry.bind
    intro result hresult
    apply (ih hentries).bind
    intro results hresults
    exact .ok (.cons hresult hresults)

end Ends

end Pushdown
