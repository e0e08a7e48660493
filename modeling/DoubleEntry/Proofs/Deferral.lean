import DoubleEntry.Proofs.Tallies

/-! # Sessions that put rebalancing off

A session may balance its transaction after every edit, or put that off to its commit. The two do not come
to the same: after an edit of another split it is the source that takes up the difference, while a commit
goes from the source and has the second split take it up. So they agree on all prices and on all splits but
these two; they agree on these as well if they agree on the source, which they do if every edit of another
split is followed by one that sets the amount of the source.
-/

namespace DoubleEntry

open DoubleEntry.Action Ledger

/-- Every edit of another split than the source is followed by one that sets the amount of the source. -/
def NumberEdit.SourceLast (source : SplitId) : List NumberEdit → Prop
  | [] => True
  | edit :: later =>
    (edit.split = source ∨ ∃ last ∈ later, last.split = source ∧ last.amount?.isSome) ∧
      SourceLast source later

instance NumberEdit.SourceLast.decidable (source : SplitId) :
    (edits : List NumberEdit) → Decidable (SourceLast source edits)
  | [] => isTrue trivial
  | edit :: later =>
    have := decidable source later
    inferInstanceAs (Decidable ((edit.split = source ∨
      ∃ last ∈ later, last.split = source ∧ last.amount?.isSome) ∧ SourceLast source later))

namespace Tally

variable {one other last : Tally} {apart more : Set SplitId} {splits rest : List SplitId}
  {transaction : Transaction} {source second entry target : SplitId} {edit : NumberEdit}
  {edits : List NumberEdit}

/-- The same prices, and the same amounts of all splits but some. -/
structure AgreeBut (apart : Set SplitId) (one other : Tally) : Prop where
  price : one.price = other.price
  amount : ∀ entry ∉ apart, one.amount entry = other.amount entry

namespace AgreeBut

theorem refl (apart : Set SplitId) (tally : Tally) : tally.AgreeBut apart tally := ⟨rfl, fun _ _ => rfl⟩

theorem mono (agree : AgreeBut apart one other) (wider : apart ⊆ more) : AgreeBut more one other :=
  ⟨agree.price, fun entry outside => agree.amount entry fun inside => outside (wider inside)⟩

theorem trans (first : AgreeBut apart one other) (second : AgreeBut apart other last) :
    AgreeBut apart one last :=
  ⟨first.price.trans second.price, fun entry outside =>
    (first.amount entry outside).trans (second.amount entry outside)⟩

theorem symm (agree : AgreeBut apart one other) : AgreeBut apart other one :=
  ⟨agree.price.symm, fun entry outside => (agree.amount entry outside).symm⟩

/-- An edit brings tallies no further apart. -/
theorem apply (agree : AgreeBut apart one other) (edit : NumberEdit) :
    AgreeBut apart (edit.apply one) (edit.apply other) := by
  refine ⟨?_, fun entry outside => ?_⟩
  · rw [NumberEdit.apply, NumberEdit.apply, agree.price]
  · by_cases same : entry = edit.split
    · subst same
      rw [NumberEdit.amount_apply, NumberEdit.amount_apply, agree.amount _ outside]
    · rw [NumberEdit.amount_apply_of_ne same, NumberEdit.amount_apply_of_ne same,
        agree.amount entry outside]

/-- An edit that sets the amount of a split brings them together there. -/
theorem apply_sets (agree : AgreeBut (insert edit.split apart) one other)
    (sets : edit.amount?.isSome) : AgreeBut apart (edit.apply one) (edit.apply other) := by
  refine ⟨(agree.apply edit).price, fun entry outside => ?_⟩
  by_cases same : entry = edit.split
  · subst same
    obtain ⟨amount, given⟩ := Option.isSome_iff_exists.mp sets
    rw [NumberEdit.amount_apply, NumberEdit.amount_apply, given]
    rfl
  · exact (agree.apply edit).amount entry (by simp [same, outside])

theorem worth (agree : AgreeBut apart one other) (outside : entry ∉ apart) :
    one.worth entry = other.worth entry := by
  rw [Tally.worth, Tally.worth, agree.price, agree.amount entry outside]

/-- A split that takes up the difference in both takes up the same if it is the only one apart. -/
theorem absorbed (agree : AgreeBut {target} one other) (priced : one.price target ≠ 0) :
    one.absorbed splits target = other.absorbed splits target := by
  have others : one.others splits target = other.others splits target := by
    rw [Tally.others, Tally.others]
    congr 1
    refine List.map_congr_left fun entry kept => agree.worth ?_
    have different := (List.mem_filter.mp kept).2
    simp only [ne_eq, Option.some.injEq, decide_not, Bool.not_eq_true', decide_eq_false_iff_not] at different
    exact fun same => different same.symm
  have pricedToo : other.price target ≠ 0 := agree.price ▸ priced
  rw [Tally.absorbed, Tally.absorbed, if_neg priced, if_neg pricedToo, others, agree.price]
  refine congrArg (Tally.mk · _) (funext fun entry => ?_)
  by_cases same : entry = target
  · rw [same, Function.update_self, Function.update_self]
  · rw [Function.update_of_ne same, Function.update_of_ne same, agree.amount entry same]

end AgreeBut

/-- Only the split that takes up the difference changes. -/
theorem absorbed_agreeBut (tally : Tally) (splits : List SplitId) (target : SplitId) :
    (tally.absorbed splits target).AgreeBut {target} tally := by
  rw [absorbed]
  split
  · exact .refl _ _
  · exact ⟨rfl, fun entry outside => Function.update_of_ne outside _ _⟩

/-! ## Step by step -/

section Steps

variable (shape : transaction.splits = source :: second :: rest)

include shape

theorem target?_source : transaction.target? source = some second := by
  simp [Transaction.target?, shape]

theorem target?_of_ne (different : entry ≠ source) : transaction.target? entry = some source := by
  simp [Transaction.target?, shape, different]

/-- A pass changes the source or the second split; from the source, only the second. -/
theorem settled_agreeBut (tally : Tally) (edited : SplitId) :
    (tally.settled transaction edited).AgreeBut {source, second} tally := by
  rw [settled]
  by_cases same : edited = source
  · rw [same, target?_source shape]
    exact (tally.absorbed_agreeBut _ second).mono (by simp)
  · rw [target?_of_ne shape same]
    exact (tally.absorbed_agreeBut _ source).mono (by simp)

theorem settled_source_agreeBut (tally : Tally) :
    (tally.settled transaction source).AgreeBut {second} tally := by
  rw [settled, target?_source shape]
  exact tally.absorbed_agreeBut _ second

/-- A pass from the source brings tallies together that are apart at the second split only. -/
theorem settled_source_congr (agree : AgreeBut {second} one other) (priced : one.price second ≠ 0) :
    one.settled transaction source = other.settled transaction source := by
  rw [settled, settled, target?_source shape]
  exact agree.absorbed priced

/-- With and without a pass after the edit, the source and the second split may come apart. -/
theorem edited_agree (agree : AgreeBut {source, second} one other) (edit : NumberEdit) :
    AgreeBut {source, second} (one.edited transaction false edit) (other.edited transaction true edit) :=
  (settled_agreeBut shape _ _).trans (agree.apply edit)

/-- After an edit of the source they do so only at the second split, if they did not before or the edit
sets the amount of the source. -/
theorem edited_agree_source (agree : AgreeBut {source, second} one other)
    (isSource : edit.split = source)
    (together : AgreeBut {second} one other ∨ edit.amount?.isSome) :
    AgreeBut {second} (one.edited transaction false edit) (other.edited transaction true edit) := by
  have settles : ((edit.apply one).settled transaction edit.split).AgreeBut {second} (edit.apply one) := by
    rw [isSource]
    exact settled_source_agreeBut shape _
  refine settles.trans ?_
  rcases together with agree | sets
  · exact agree.apply edit
  · exact AgreeBut.apply_sets (isSource ▸ agree) sets

theorem edits_agree (agree : AgreeBut {source, second} one other) (edits : List NumberEdit) :
    AgreeBut {source, second} (edits.foldl (Tally.edited transaction false) one)
      (edits.foldl (Tally.edited transaction true) other) := by
  induction edits generalizing one other with
  | nil => exact agree
  | cons edit rest ih => exact ih (edited_agree shape agree edit)

/-- Together at the source, or to be brought together there: an edit of another split leaves that to a
later edit of the source. -/
theorem edits_agree_source (agree : AgreeBut {source, second} one other)
    (settled : NumberEdit.SourceLast source edits)
    (together : AgreeBut {second} one other ∨
      ∃ edit ∈ edits, edit.split = source ∧ edit.amount?.isSome) :
    AgreeBut {second} (edits.foldl (Tally.edited transaction false) one)
      (edits.foldl (Tally.edited transaction true) other) := by
  induction edits generalizing one other with
  | nil => exact together.elim id fun ⟨_, inside, _⟩ => absurd inside List.not_mem_nil
  | cons edit rest ih =>
    have next := edited_agree shape agree edit
    refine ih next settled.2 ?_
    by_cases isSource : edit.split = source
    · rcases together with agree' | ⟨last, inside, sets⟩
      · exact .inl (edited_agree_source shape agree isSource (.inl agree'))
      · rcases List.mem_cons.mp inside with rfl | later
        · exact .inl (edited_agree_source shape agree isSource (.inr sets.2))
        · exact .inr ⟨last, later, sets⟩
    · exact .inr (settled.1.resolve_left isSource)

variable (distinct : transaction.splits.Nodup)

include distinct

theorem source_ne_second : source ≠ second := by
  rw [shape, List.nodup_cons] at distinct
  exact fun same => distinct.1 (same ▸ List.mem_cons_self)

theorem rest_apart : ∀ entry ∈ rest, entry ∉ ({source, second} : Set SplitId) := by
  rw [shape, List.nodup_cons, List.nodup_cons] at distinct
  rintro entry inside (rfl | rfl)
  · exact distinct.1 (List.mem_cons_of_mem _ inside)
  · exact distinct.2.1 inside

/-- The last pass makes up for all splits but the first two. -/
theorem worth_settled (tally : Tally) (priced : tally.price second ≠ 0) :
    (tally.settled transaction source).worth source + (tally.settled transaction source).worth second =
      -(rest.map tally.worth).sum := by
  have differ := source_ne_second shape distinct
  have others : tally.others transaction.splits second = tally.worth source + (rest.map tally.worth).sum := by
    have kept : rest.filter (fun entry => some second ≠ some entry) = rest :=
      List.filter_eq_self.mpr fun entry inside => by
        simpa using fun same : second = entry => rest_apart shape distinct entry inside (.inr same.symm)
    rw [others, shape, List.filter_cons_of_pos (by simpa using differ.symm),
      List.filter_cons_of_neg (by simp), kept, List.map_cons, List.sum_cons]
  rw [settled, target?_source shape]
  dsimp only
  rw [absorbed, if_neg priced, worth, worth]
  dsimp only
  rw [Function.update_of_ne differ, Function.update_self, div_mul_cancel₀ _ priced, others, worth]
  ring

end Steps

/-- How two sessions with the same edits compare, of which one balances after every edit and the other
puts that off to its commit. -/
structure Postponed (start : Tally) (source second : SplitId) (edits : List NumberEdit)
    (immediate deferred : Tally) : Prop where
  apart : immediate.AgreeBut {source, second} deferred
  /-- Postponing moves value between the first two splits at most. -/
  moved : deferred.price second ≠ 0 → immediate.worth source + immediate.worth second =
    deferred.worth source + deferred.worth second
  same_iff : deferred.price second ≠ 0 →
    (immediate = deferred ↔ immediate.amount source = deferred.amount source)
  same : deferred.price second ≠ 0 → NumberEdit.SourceLast source edits → immediate = deferred
  /-- No edit is lost but those of the amount of the second split. -/
  kept : deferred.AgreeBut {second} (edits.foldl (fun tally edit => edit.apply tally) start)

theorem postponed (shape : transaction.splits = source :: second :: rest)
    (distinct : transaction.splits.Nodup) (start : Tally) (edits : List NumberEdit) :
    start.Postponed source second edits
      ((edits.foldl (Tally.edited transaction false) start).settled transaction source)
      ((edits.foldl (Tally.edited transaction true) start).settled transaction source) := by
  have before := edits_agree shape (.refl {source, second} start) edits
  have ordered (last : NumberEdit.SourceLast source edits) :=
    edits_agree_source shape (.refl {source, second} start) last (.inl (.refl {second} start))
  have kept : ((edits.foldl (Tally.edited transaction true) start).settled transaction source).AgreeBut
      {second} (edits.foldl (fun tally edit => edit.apply tally) start) :=
    settled_source_agreeBut shape _
  -- The edits matter only through these relations; what is left is the pass of the commit.
  generalize edits.foldl (Tally.edited transaction false) start = immediate at before ordered ⊢
  generalize edits.foldl (Tally.edited transaction true) start = deferred at before ordered kept ⊢
  have onceMore := settled_source_agreeBut shape immediate
  have once := settled_source_agreeBut shape deferred
  have priced_immediate (priced : (deferred.settled transaction source).price second ≠ 0) :
      immediate.price second ≠ 0 := by rwa [once.price, ← before.price] at priced
  have differ : source ∉ ({second} : Set SplitId) := source_ne_second shape distinct
  refine ⟨?_, fun priced => ?_, fun priced => ⟨fun same => by rw [same], fun same => ?_⟩,
    fun priced last => ?_, kept⟩
  · exact (onceMore.mono (by simp)).trans (before.trans (once.symm.mono (by simp)))
  · rw [worth_settled shape distinct immediate (priced_immediate priced),
      worth_settled shape distinct deferred (once.price ▸ priced)]
    exact congrArg (-List.sum ·) (List.map_congr_left fun entry inside =>
      before.worth (rest_apart shape distinct entry inside))
  · refine settled_source_congr shape ⟨before.price, fun entry outside => ?_⟩ (priced_immediate priced)
    by_cases isSource : entry = source
    · rw [isSource, ← onceMore.amount source differ, ← once.amount source differ, same]
    · exact before.amount entry (by simpa [isSource] using outside)
  · exact settled_source_congr shape (ordered last) (priced_immediate priced)

end Tally

/-! ## In the ledger -/

section Sessions

variable {J : Type} [Journal J Rat] {ledger : Ledger Rat J} {owner : TransactionId}
  {transaction : Transaction} {source second : SplitId} {rest : List SplitId} {currency : Commodity}
  {edits : List NumberEdit}

/-- How a session on a transaction ends. -/
def Ledger.session (ledger : Ledger Rat J) (owner : TransactionId) (defer : Bool)
    (edits : List NumberEdit) : Outcome Rat J Unit := inTurn (Command.session owner defer edits) ledger

/-- A session that postpones rebalancing and one that does not, on the same transaction and with the same
edits of amounts and prices, where all splits are in accounts of one currency that do not put rebalancing
off. If both succeed, they end with the same prices, and with the same amounts of all splits but the first
two, whose worth taken together is the same. Unless the price of the second split ends as zero, all amounts
are the same if that of the source is; and it is if each edit of another split is followed by one that sets
the amount of the source. -/
theorem Reachable.sessions_agree (reached : Reachable (fun _ => True) ledger)
    (isOwner : ledger.transaction? owner = some transaction)
    (shape : transaction.splits = source :: second :: rest)
    (uniform : ledger.Uniform transaction.splits currency)
    (inside : ∀ edit ∈ edits, edit.split ∈ transaction.splits)
    (succeeds : (ledger.session owner false edits).result = .ok ())
    (succeedsDeferred : (ledger.session owner true edits).result = .ok ()) :
    ledger.tally.Postponed source second edits (ledger.session owner false edits).ledger.tally
      (ledger.session owner true edits).ledger.tally := by
  have owned := reached.owned
  have fit : ledger.Fit owner transaction currency := by
    refine ⟨isOwner, uniform, ?_, fun entry listed => ?_⟩
    · simp [shape]
    · exact parentOf?_eq_some_iff.mpr ((owned.mem_iff isOwner).mp listed)
  have isSource : transaction.source? = some source := by
    rw [Transaction.source?, shape]
    rfl
  rw [session, session, Tallies.yields_session fit isSource inside ⟨(), succeeds⟩,
    Tallies.yields_session fit isSource inside ⟨(), succeedsDeferred⟩]
  exact Tally.postponed shape (owned.nodup isOwner) ledger.tally edits

end Sessions

/-! ## Two sessions on one transaction

Source 2 and split 5 are in accounts of one currency, and their transaction 3 is closed.
-/

section ClosedTwoSided

def Ledger.closedTwoSided (enforcement : Enforcement) : Ledger Rat (MemoryLog Rat) :=
  (Ledger.start ⟨enforcement⟩ {}).after
    (Deed.twoSided none none .dollar ++ [.command (.commitEdit ⟨.ofNat 3⟩)])

theorem Ledger.closedTwoSided_uniform (enforcement : Enforcement) :
    (closedTwoSided enforcement).Uniform [⟨.ofNat 2⟩, ⟨.ofNat 5⟩] .dollar := by
  intro entry inside
  have place : ((closedTwoSided enforcement).holder? entry).map
      (fun holder => (holder.currency, holder.defers)) = some (.dollar, false) := by
    revert entry inside
    cases enforcement <;> decide +kernel
  obtain ⟨holder, found, same⟩ := Option.map_eq_some_iff.mp place
  exact ⟨holder, found, congrArg Prod.fst same, congrArg Prod.snd same⟩

/-- An amount of the second split and after it one of the source: postponed or not, it comes to the same. -/
theorem Reachable.sessions_agree_sourceLast :
    ((closedTwoSided .forceBalance).session ⟨.ofNat 3⟩ false
        [.setAmount ⟨.ofNat 5⟩ 10, .setBoth ⟨.ofNat 2⟩ 2 4]).ledger.tally =
      ((closedTwoSided .forceBalance).session ⟨.ofNat 3⟩ true
        [.setAmount ⟨.ofNat 5⟩ 10, .setBoth ⟨.ofNat 2⟩ 2 4]).ledger.tally := by
  have reached : Reachable (fun _ => True) (closedTwoSided .forceBalance) :=
    (Reachable.start _ _).after _ (fun _ _ => trivial) (by decide +kernel)
  have lists : ((closedTwoSided .forceBalance).transaction? ⟨.ofNat 3⟩).map (·.splits) =
      some [⟨.ofNat 2⟩, ⟨.ofNat 5⟩] := by decide +kernel
  obtain ⟨transaction, isOwner, shape⟩ := Option.map_eq_some_iff.mp lists
  refine (Reachable.sessions_agree reached isOwner shape (shape ▸ closedTwoSided_uniform _) ?_
    ?_ ?_).same ?_ ?_
  · rw [shape]
    decide
  · decide +kernel
  · decide +kernel
  · decide +kernel
  · decide

/-- An amount of the second split is lost at the commit of a session that puts rebalancing off, and else
kept. An amount that the second split took up stays after its price is set to zero, and is not there if
rebalancing was put off. -/
theorem Reachable.sessions_differ :
    (Reachable (fun _ => True) (closedTwoSided .forceBalance) ∧
      ((closedTwoSided .forceBalance).transaction? ⟨.ofNat 3⟩).map (fun t => (t.splits, t.edit)) =
        some ([⟨.ofNat 2⟩, ⟨.ofNat 5⟩], .closed) ∧
      (∀ entry ∈ [⟨.ofNat 2⟩, ⟨.ofNat 5⟩], (closedTwoSided .forceBalance).price entry ≠ 0) ∧
      (closedTwoSided .forceBalance).Uniform [⟨.ofNat 2⟩, ⟨.ofNat 5⟩] .dollar ∧
      (∀ defer, ((closedTwoSided .forceBalance).session ⟨.ofNat 3⟩ defer
        [.setAmount ⟨.ofNat 5⟩ 10]).result = .ok ()) ∧
      [⟨.ofNat 2⟩, ⟨.ofNat 5⟩].map ((closedTwoSided .forceBalance).session ⟨.ofNat 3⟩ false
        [.setAmount ⟨.ofNat 5⟩ 10]).ledger.amount = [-10, 10] ∧
      [⟨.ofNat 2⟩, ⟨.ofNat 5⟩].map ((closedTwoSided .forceBalance).session ⟨.ofNat 3⟩ true
        [.setAmount ⟨.ofNat 5⟩ 10]).ledger.amount = [0, 0]) ∧
    (Reachable (fun _ => True) (closedTwoSided .tolerant) ∧
      ((closedTwoSided .tolerant).transaction? ⟨.ofNat 3⟩).map (fun t => (t.splits, t.edit)) =
        some ([⟨.ofNat 2⟩, ⟨.ofNat 5⟩], .closed) ∧
      (∀ entry ∈ [⟨.ofNat 2⟩, ⟨.ofNat 5⟩], (closedTwoSided .tolerant).price entry ≠ 0) ∧
      (closedTwoSided .tolerant).Uniform [⟨.ofNat 2⟩, ⟨.ofNat 5⟩] .dollar ∧
      (∀ defer, ((closedTwoSided .tolerant).session ⟨.ofNat 3⟩ defer
        [.setAmount ⟨.ofNat 2⟩ 5, .setPrice ⟨.ofNat 5⟩ 0, .setAmount ⟨.ofNat 2⟩ 5]).result = .ok ()) ∧
      [⟨.ofNat 2⟩, ⟨.ofNat 5⟩].map ((closedTwoSided .tolerant).session ⟨.ofNat 3⟩ false
        [.setAmount ⟨.ofNat 2⟩ 5, .setPrice ⟨.ofNat 5⟩ 0, .setAmount ⟨.ofNat 2⟩ 5]).ledger.amount =
          [5, -5] ∧
      [⟨.ofNat 2⟩, ⟨.ofNat 5⟩].map ((closedTwoSided .tolerant).session ⟨.ofNat 3⟩ true
        [.setAmount ⟨.ofNat 2⟩ 5, .setPrice ⟨.ofNat 5⟩ 0, .setAmount ⟨.ofNat 2⟩ 5]).ledger.amount =
          [5, 0]) := by
  refine ⟨⟨?_, ?_, ?_, closedTwoSided_uniform _, ?_, ?_, ?_⟩, ?_, ?_, ?_, closedTwoSided_uniform _,
    ?_, ?_, ?_⟩
  · exact (Reachable.start _ _).after _ (fun _ _ => trivial) (by decide +kernel)
  · decide +kernel
  · decide +kernel
  · decide +kernel
  · decide +kernel
  · decide +kernel
  · exact (Reachable.start _ _).after _ (fun _ _ => trivial) (by decide +kernel)
  · decide +kernel
  · decide +kernel
  · decide +kernel
  · decide +kernel
  · decide +kernel

end ClosedTwoSided

end DoubleEntry
