import DoubleEntry.Proofs.Calendar
import DoubleEntry.Proofs.Redating

/-! # Posting on calendar days

A calendar day is given by its year, month and day of the month. If there is such a day, a transaction that is
open gets both dates at eleven o'clock on it, and otherwise nothing happens. What is posted on an earlier day
comes first, whatever the order of the calls was.
-/

namespace DoubleEntry

open DoubleEntry.Action Calendar

/-! ## Instants of days -/

/-- Both dates are eleven o'clock on a day. The days between it and the first of 1970 are counted one by one,
from the earlier of the two. -/
structure Transaction.IsPostedOn (transaction : Transaction) (date : Date) : Prop where
  entered : transaction.entered = transaction.posted
  nanos : transaction.posted.nanos = 0
  hour : transaction.posted.seconds % 86400 = 11 * 3600
  day : let days := transaction.posted.seconds / 86400
    Date.next^[days.toNat] ⟨1970, 1, 1⟩ = Date.next^[(-days).toNat] date

namespace Transaction.IsPostedOn

variable {transaction other : Transaction} {date otherDate : Date}

theorem seconds_eq (posted : transaction.IsPostedOn date) (isDay : date.IsDay) :
    transaction.posted.seconds = date.dayNumber * 86400 + 11 * 3600 := by
  have first : Date.IsDay ⟨1970, 1, 1⟩ := by decide
  have origin : Date.dayNumber ⟨1970, 1, 1⟩ = 0 := by decide
  have same := congrArg Date.dayNumber posted.day
  have hour := posted.hour
  rw [(first.iterate_next _).2, (isDay.iterate_next _).2] at same
  omega

/-- What is posted on an earlier day is posted earlier. -/
theorem order_eq (posted : transaction.IsPostedOn date) (isDay : date.IsDay)
    (posted' : other.IsPostedOn otherDate) (isDay' : otherDate.IsDay) :
    transaction.posted.order other.posted = date.order otherDate := by
  have later : StrictMono fun number : Int => number * 86400 + 11 * 3600 :=
    fun first second before => by dsimp only; omega
  have seconds : compare transaction.posted.seconds other.posted.seconds =
      compare date.dayNumber otherDate.dayNumber := by
    rw [posted.seconds_eq isDay, posted'.seconds_eq isDay', ← cmp_eq_compare, ← cmp_eq_compare]
    exact later.cmp_map_eq _ _
  rw [Instant.order, seconds, posted.nanos, posted'.nanos, isDay.compare_dayNumber isDay']
  exact Ordering.then_eq

/-- What is posted on the same day is posted at the same instant. -/
theorem posted_eq (posted : transaction.IsPostedOn date) (posted' : other.IsPostedOn date)
    (isDay : date.IsDay) : transaction.posted = other.posted := by
  have seconds := (posted.seconds_eq isDay).trans (posted'.seconds_eq isDay).symm
  have nanos := posted.nanos.trans posted'.nanos.symm
  revert seconds nanos
  cases transaction.posted
  cases other.posted
  rintro rfl rfl
  rfl

end Transaction.IsPostedOn

/-- A day of the calendar has an eleven o'clock if its year is one that dates are given for. -/
theorem Instant.onDay?_eq {date : Date} (valid : date.IsValid) : ∃ instant,
    Instant.onDay? date postingHour = some instant ∧
      instant.seconds = date.dayNumber * 86400 + 11 * 3600 ∧ instant.nanos = 0 := by
  obtain ⟨first, last⟩ := valid.dayNumber_bounds
  have subsecond : 0 < 2000000000 := by decide
  have bounds : -8334601228800 ≤ date.dayNumber * 86400 + 11 * 3600 ∧
      date.dayNumber * 86400 + 11 * 3600 ≤ 8210266876799 := by omega
  rw [Instant.onDay?, if_pos valid]
  exact ⟨⟨_, 0, bounds.1, bounds.2, subsecond⟩, dif_pos ⟨bounds.1, bounds.2, subsecond⟩, rfl, rfl⟩

/-! ## Setting both dates -/

section Posting

variable {α J : Type} {ledger : Ledger α J} {owner : TransactionId} {transaction : Transaction}

theorem Ledger.checkOpen_of_isOpen (found : ledger.transaction? owner = some transaction)
    (isOpen : transaction.edit.isOpen = true) : ledger.checkOpen owner = .ok () :=
  checkOpen_eq_ok_iff.mpr ⟨transaction, found, isOpen⟩

theorem Action.ends_setPosted_open (found : ledger.transaction? owner = some transaction)
    (isOpen : transaction.edit.isOpen = true) (date : Instant) :
    (setPosted owner date).Ends ledger fun result after => result = .ok () ∧
      after.postings = (ledger.modifyTransaction owner fun t => { t with posted := date }).postings := by
  simp only [setPosted, ensureOpen_eq, ends_bind, ends_ask, ends_update, ends_read,
    Ledger.checkOpen_of_isOpen found isOpen]
  refine (ends_repositions_registers _ _).imp fun result after ends => ?_
  obtain ⟨rfl, postings, -⟩ := ends
  exact ⟨trivial, Ledger.postings_markTransaction.trans postings⟩

theorem Action.ends_setDates_open (found : ledger.transaction? owner = some transaction)
    (isOpen : transaction.edit.isOpen = true) (date : Instant) :
    (setDates owner date).Ends ledger fun result after => result = .ok () ∧
      after.transaction? owner = some { transaction with entered := date, posted := date } ∧
      ∀ other, other ≠ owner → after.transaction? other = ledger.transaction? other := by
  simp only [setDates, ensureOpen_eq, ends_bind, ends_ask, ends_update,
    Ledger.checkOpen_of_isOpen found isOpen]
  let entered := ledger.modifyTransaction owner fun t => { t with entered := date }
  have now : entered.transaction? owner = some { transaction with entered := date } := by
    rw [Ledger.transaction?_modifyTransaction, if_pos rfl, found]
    rfl
  refine (ends_setPosted_open now isOpen date).imp fun result after ends => ?_
  obtain ⟨succeeds, postings⟩ := ends
  have listed (id) : after.transaction? id =
      (entered.modifyTransaction owner fun t => { t with posted := date }).transaction? id :=
    congrArg (·.transactions.get? id) postings
  refine ⟨succeeds, ?_, fun other isOther => ?_⟩
  · rw [listed, Ledger.transaction?_modifyTransaction, if_pos rfl, now]
    rfl
  · rw [listed, Ledger.transaction?_modifyTransaction, if_neg isOther,
      Ledger.transaction?_modifyTransaction, if_neg isOther]

variable [Scalar α] [Journal J α] {day month : Nat} {year : Int}

theorem Command.ends_setDay_invalid (invalid : ¬ Date.IsValid ⟨year, month, day⟩) :
    ((Command.setDay owner day month year : Command α).act (J := J)).Ends ledger fun result after =>
      result = .error (.invalid (.noSuchDay year month day)) ∧ after = ledger := by
  have noDay : Instant.onDay? ⟨year, month, day⟩ postingHour = none := if_neg invalid
  rw [Command.act, Command.ends_done, Action.setDay, noDay]
  exact ⟨rfl, rfl⟩

theorem Command.ends_setDay_open (found : ledger.transaction? owner = some transaction)
    (isOpen : transaction.edit.isOpen = true) (valid : Date.IsValid ⟨year, month, day⟩) :
    ((Command.setDay owner day month year : Command α).act (J := J)).Ends ledger fun result after =>
      result = .ok .done ∧ ∃ dated, after.transaction? owner = some dated ∧
        dated.IsPostedOn ⟨year, month, day⟩ ∧
        ∀ other, other ≠ owner → after.transaction? other = ledger.transaction? other := by
  obtain ⟨instant, isDay, seconds, nanos⟩ := Instant.onDay?_eq valid
  have days : instant.seconds / 86400 = Date.dayNumber ⟨year, month, day⟩ := by omega
  rw [Command.act, Command.ends_done, Action.setDay, isDay]
  refine (ends_setDates_open found isOpen instant).imp fun result after ends => ?_
  obtain ⟨rfl, dated, others⟩ := ends
  refine ⟨rfl, _, dated, ⟨rfl, nanos, ?_, ?_⟩, others⟩
  · rw [seconds]
    omega
  · simpa only [days] using valid.isDay.iterate_dayNumber

/-- Setting a transaction that is open to a day succeeds exactly if there is such a day, in a year that dates
are given for. If there is none, the call is refused for it and the ledger stays as it was.

If there is, both dates of the transaction are eleven o'clock on that day, and no other transaction is
changed. In the ledger order of dates it comes before all that is posted on days that come later by year,
month and day, after all that is posted on earlier ones, and at the same instant as what is posted on the same
day. -/
theorem Ledger.posts_on_day (found : ledger.transaction? owner = some transaction)
    (isOpen : transaction.edit.isOpen = true) (day month : Nat) (year : Int) :
    let date : Date := ⟨year, month, day⟩
    let outcome := (Command.setDay owner day month year).run ledger
    (outcome.result = .ok .done ↔ date.IsValid) ∧
    (¬ date.IsValid →
      outcome.result = .error (.invalid (.noSuchDay year month day)) ∧ outcome.ledger = ledger) ∧
    (date.IsValid → ∃ dated, outcome.ledger.transaction? owner = some dated ∧ dated.IsPostedOn date ∧
      (∀ id, id ≠ owner → outcome.ledger.transaction? id = ledger.transaction? id) ∧
      ∀ (other : Transaction) (otherDate : Date), otherDate.IsValid → other.IsPostedOn otherDate →
        dated.posted.order other.posted = date.order otherDate ∧
        (otherDate = date → other.posted = dated.posted)) := by
  intro date outcome
  have refused (invalid : ¬ date.IsValid) :
      outcome.result = .error (.invalid (.noSuchDay year month day)) ∧ outcome.ledger = ledger :=
    Command.ends_setDay_invalid invalid
  have posted (valid : date.IsValid) : outcome.result = .ok .done ∧ ∃ dated,
      outcome.ledger.transaction? owner = some dated ∧ dated.IsPostedOn date ∧
      ∀ id, id ≠ owner → outcome.ledger.transaction? id = ledger.transaction? id :=
    Command.ends_setDay_open found isOpen valid
  refine ⟨⟨fun succeeds => ?_, fun valid => (posted valid).1⟩, refused, fun valid => ?_⟩
  · by_contra invalid
    rw [(refused invalid).1] at succeeds
    cases succeeds
  · obtain ⟨-, dated, found, isPosted, others⟩ := posted valid
    refine ⟨dated, found, isPosted, others, fun other otherDate valid' isPosted' => ⟨?_, ?_⟩⟩
    · exact isPosted.order_eq valid.isDay isPosted' valid'.isDay
    · rintro rfl
      exact isPosted'.posted_eq isPosted valid.isDay

omit [Scalar α] [Journal J α] in
/-- The year zero is a leap year. -/
theorem Ledger.posts_on_day_crossing :
    let outcome := (Command.setDay ⟨.ofNat 6⟩ 29 2 0).run crossing
    outcome.result = .ok .done ∧ ∃ dated, outcome.ledger.transaction? ⟨.ofNat 6⟩ = some dated ∧
      dated.IsPostedOn ⟨0, 2, 29⟩ := by
  have opened : (crossing.transaction? ⟨.ofNat 6⟩).map (·.edit.isOpen) = some true := by decide +kernel
  obtain ⟨transaction, found, isOpen⟩ := Option.map_eq_some_iff.mp opened
  obtain ⟨succeeds, -, posted⟩ := Ledger.posts_on_day found isOpen 29 2 0
  obtain ⟨dated, found, isPosted, -⟩ := posted (by decide)
  exact ⟨succeeds.mpr (by decide), dated, found, isPosted⟩

end Posting

end DoubleEntry
