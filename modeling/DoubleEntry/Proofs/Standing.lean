import DoubleEntry.Proofs.Closing
import DoubleEntry.Proofs.Redating

/-! # Where a split stands among the others

If all splits of a register but one are in order, the one that enters it gets the only place that it can
have behind those that it is level with, and the others stay in the order that they had. A split that is in
the register already is sent there exactly if the register is out of order, and its two neighbours are
enough to tell.
-/

namespace DoubleEntry

open Std

namespace Register

variable {κ : Type} [DecidableEq κ] {order : κ → κ → Ordering} {entry : κ} {entries front back : List κ}

/-- An entry is listed once, behind every other that does not come after it and in front of every other
that does. -/
def Stands (order : κ → κ → Ordering) (entry : κ) (entries : List κ) : Prop :=
  ∃ front back, entries = front ++ entry :: back ∧
    (∀ other ∈ front, other ≠ entry ∧ order other entry ≠ .gt) ∧
    ∀ other ∈ back, other ≠ entry ∧ order other entry = .gt

theorem Stands.count_eq_one (stands : Stands order entry entries) : entries.count entry = 1 := by
  obtain ⟨front, back, rfl, before, after⟩ := stands
  have notBefore : entry ∉ front := fun inside => (before entry inside).1 rfl
  have notAfter : entry ∉ back := fun inside => (after entry inside).1 rfl
  rw [List.count_append, List.count_cons_self, List.count_eq_zero.mpr notBefore,
    List.count_eq_zero.mpr notAfter]

/-- The others stay as they are, whatever the place is. -/
theorem filter_insert_self : (Register.insert order entry entries).filter (· ≠ entry) =
    entries.filter (· ≠ entry) := by
  rw [Register.insert, List.filter_append, List.filter_cons_of_neg (by simp), ← List.filter_append,
    List.take_append_drop, List.filter_filter]
  simp only [Bool.and_self]

theorem stands_insert [TransCmp order] (sorted : InOrder order (entries.filter (· ≠ entry))) :
    Stands order entry (Register.insert order entry entries) := by
  obtain ⟨stay, follow⟩ := (sorted.falls entry).split
  have isOther {part : List κ} (within : part.Sublist (entries.filter (· ≠ entry))) {other : κ}
      (inside : other ∈ part) : other ≠ entry := by
    simpa using (List.mem_filter.mp (within.subset inside)).2
  refine ⟨_, _, rfl, fun other inside => ⟨isOther (List.take_sublist _ _) inside, ?_⟩,
    fun other inside => ⟨isOther (List.drop_sublist _ _) inside, ?_⟩⟩
  · exact bne_iff_ne.mp (stay other inside)
  · simpa using follow other inside

omit [DecidableEq κ] in
/-- In a register in order, an entry is at odds with neither neighbour. -/
theorem InOrder.isInPlace (sorted : InOrder order (front ++ entry :: back)) :
    Register.isInPlace order (front ++ entry :: back) front.length entry = true := by
  obtain ⟨-, backs, across⟩ := List.pairwise_append.mp sorted
  rw [Register.isInPlace, Bool.and_eq_true_iff]
  constructor
  · rcases front.eq_nil_or_concat with rfl | ⟨init, last, rfl⟩
    · rfl
    · have before : order last entry ≠ .gt := across last (by simp) entry List.mem_cons_self
      simpa using before
  · cases back with
    | nil => simp
    | cons next rest =>
      have after : order entry next ≠ .gt := (List.pairwise_cons.mp backs).1 next List.mem_cons_self
      simpa using after

end Register

namespace Book

open Register

variable {α : Type} {book : Book} {postings : Postings α} {account : AccountId} {holder : Account}
  {split : SplitId}

theorem get?_insertSplit (held : book.get? account = some holder) :
    (book.insertSplit postings account split).get? account = some { holder with
      register := Register.insert postings.compare split holder.register, changed := true } := by
  rw [insertSplit, Table.get?_modify, if_pos rfl, held]
  rfl

/-- If the others are in order, the neighbours of a split tell whether the whole register is. -/
theorem isMisplaced_iff (held : book.get? account = some holder) (distinct : holder.register.Nodup)
    (others : InOrder postings.compare (holder.register.filter (· ≠ split)))
    (inside : split ∈ holder.register) :
    book.isMisplaced postings account split = true ↔ ¬ InOrder postings.compare holder.register := by
  obtain ⟨index, found⟩ : ∃ index, holder.register.idxOf? split = some index :=
    Option.isSome_iff_exists.mp (List.isSome_idxOf? .. |>.mpr inside)
  obtain ⟨short, here, -⟩ := List.idxOf?_eq_some_iff.mp found
  obtain ⟨front, back, shape, rfl⟩ : ∃ front back, holder.register = front ++ split :: back ∧
      index = front.length :=
    ⟨holder.register.take index, holder.register.drop (index + 1), by simp [← here], by simp [short.le]⟩
  rw [isMisplaced, held, Option.any_some, found, Option.any_some, shape, Bool.not_eq_true', ← Bool.not_eq_true]
  rw [shape] at distinct others
  rw [filter_middle distinct] at others
  exact not_congr ⟨others.of_isInPlace, InOrder.isInPlace⟩

/-- A split and the register of an account, whose other splits are in order.

Once it is put into it, the register is in order; it is in it once, behind all others that it may stand
behind and in front of all that come after it; and the others stay in the order that they had.

If it is in the register already, it is found misplaced exactly if the register is out of order. The book is
left alone if it is not misplaced; and whether or not it is, the register holds the same splits as before,
and in order, once its order is restored. -/
theorem split_findsPlace (held : book.get? account = some holder) (distinct : holder.register.Nodup)
    (others : InOrder postings.compare (holder.register.filter (· ≠ split))) :
    (∃ after, (book.insertSplit postings account split).get? account = some after ∧
      InOrder postings.compare after.register ∧ after.register.count split = 1 ∧
      after.register.filter (· ≠ split) = holder.register.filter (· ≠ split) ∧
      Stands postings.compare split after.register) ∧
    (split ∈ holder.register →
      (book.isMisplaced postings account split = true ↔ ¬ InOrder postings.compare holder.register) ∧
      (book.isMisplaced postings account split = false →
        book.restoreOrder postings account split = book) ∧
      ∃ after, (book.restoreOrder postings account split).get? account = some after ∧
        InOrder postings.compare after.register ∧ after.register.Perm holder.register) := by
  have stands := stands_insert others
  refine ⟨⟨_, get?_insertSplit held, others.insert, stands.count_eq_one, filter_insert_self, stands⟩, ?_⟩
  intro inside
  have misplaced := isMisplaced_iff held distinct others inside
  refine ⟨misplaced, fun stays => if_neg (by simp [stays]), ?_⟩
  cases moves : book.isMisplaced postings account split with
  | true =>
    rw [restoreOrder, if_pos moves]
    exact ⟨_, get?_insertSplit held, others.insert, perm_insert distinct inside⟩
  | false =>
    rw [restoreOrder, if_neg (by simp [moves])]
    refine ⟨holder, held, ?_, List.Perm.refl _⟩
    by_contra disordered
    simp [misplaced.mpr disordered] at moves

/-- Three splits of no transaction, the first of which has a memo that comes after that of the second. -/
def noted : Postings Rat :=
  let memo (memo : String) : Split Rat := { (.empty : Split Rat) with memo }
  ⟨((Table.empty.insert ⟨.ofNat 0⟩ (memo "rent")).insert ⟨.ofNat 1⟩ (memo "food")).insert
    ⟨.ofNat 2⟩ (memo "rent"), .empty⟩

/-- The three splits as they were put in while the first of them had no memo. -/
def notedHolder : Account :=
  { name := "Cash", currency := .dollar, register := [⟨.ofNat 0⟩, ⟨.ofNat 1⟩, ⟨.ofNat 2⟩] }

/-- The first split has to move. -/
theorem split_findsPlace_noted :
    let book : Book := Table.empty.insert ⟨.ofNat 9⟩ notedHolder
    book.isMisplaced noted ⟨.ofNat 9⟩ ⟨.ofNat 0⟩ = true ∧
      ∃ after, (book.restoreOrder noted ⟨.ofNat 9⟩ ⟨.ofNat 0⟩).get? ⟨.ofNat 9⟩ = some after ∧
        InOrder noted.compare after.register ∧ after.register.Perm notedHolder.register := by
  intro book
  have held : book.get? ⟨.ofNat 9⟩ = some notedHolder := by decide +kernel
  have distinct : notedHolder.register.Nodup := by decide +kernel
  have others : (notedHolder.register.filter (· ≠ ⟨.ofNat 0⟩)).Pairwise
      fun a b => noted.compare a b ≠ .gt := by decide +kernel
  have disordered : ¬ notedHolder.register.Pairwise fun a b => noted.compare a b ≠ .gt := by decide +kernel
  obtain ⟨-, listed⟩ := split_findsPlace held distinct others
  obtain ⟨misplaced, -, restored⟩ := listed (by decide +kernel)
  exact ⟨misplaced.mpr disordered, restored⟩

end Book

end DoubleEntry
